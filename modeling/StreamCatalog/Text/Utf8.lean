import StreamCatalog.Bytes

/-!
# Reading UTF-8 with replacement

`Utf8.decode` reads any byte string as text. Each longest run of bytes that
starts a well-formed character but does not complete it is read as the
replacement character, and so is each byte that starts none.
-/

namespace StreamCatalog.Utf8

/-- What stands for bytes that are no character. -/
def replacement : Char := '\uFFFD'

/-- What a first byte says about its character. -/
structure Lead where
  /-- The bits of the code point in the first byte. -/
  bits : Nat
  /-- The least second byte that may follow. -/
  low : Nat
  /-- The greatest second byte that may follow. -/
  high : Nat
  /-- How many bytes follow. -/
  following : Nat

/-- The meaning of a first byte, if it can start a character. -/
def lead (b : Nat) : Option Lead :=
  if b < 0x80 then some ⟨b, 0x80, 0xBF, 0⟩
  else if b < 0xC2 then none
  else if b < 0xE0 then some ⟨b - 0xC0, 0x80, 0xBF, 1⟩
  else if b = 0xE0 then some ⟨0, 0xA0, 0xBF, 2⟩
  else if b = 0xED then some ⟨0xD, 0x80, 0x9F, 2⟩
  else if b < 0xF0 then some ⟨b - 0xE0, 0x80, 0xBF, 2⟩
  else if b = 0xF0 then some ⟨0, 0x90, 0xBF, 3⟩
  else if b < 0xF4 then some ⟨b - 0xF0, 0x80, 0xBF, 3⟩
  else if b = 0xF4 then some ⟨4, 0x80, 0x8F, 3⟩
  else none

/-- Read the bytes that follow a first byte: the code point, if all of them are
there, and the bytes from the first one that does not belong to it. -/
def readFollowing (code low high : Nat) : Nat → Bytes → Option Nat × Bytes
  | 0, bs => (some code, bs)
  | _ + 1, [] => (none, [])
  | n + 1, b :: bs =>
    if low ≤ b.toNat ∧ b.toNat ≤ high then
      readFollowing (code * 64 + (b.toNat - 0x80)) 0x80 0xBF n bs
    else
      (none, b :: bs)

theorem length_readFollowing_le (code low high n : Nat) (bs : Bytes) :
    (readFollowing code low high n bs).2.length ≤ bs.length := by
  fun_induction readFollowing code low high n bs with
  | case1 => simp
  | case2 => simp
  | case3 code low high n b bs hb ih => simp only [List.length_cons]; omega
  | case4 => simp

/-- The characters of a byte string. -/
def decode : Bytes → List Char
  | [] => []
  | b :: rest =>
    match lead b.toNat with
    | none => replacement :: decode rest
    | some l =>
      let following := readFollowing l.bits l.low l.high l.following rest
      following.1.elim replacement Char.ofNat :: decode following.2
termination_by bs => bs.length
decreasing_by
  · simp
  · have := length_readFollowing_le l.bits l.low l.high l.following rest
    simp only [List.length_cons]
    omega

end StreamCatalog.Utf8
