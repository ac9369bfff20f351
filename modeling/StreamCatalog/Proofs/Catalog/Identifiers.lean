import Mathlib.Data.Nat.ModEq
import Mathlib.Data.String.Basic
import StreamCatalog.Catalog.Stored
import StreamCatalog.Json.Parser

/-!
# Identifiers of the database

The identifiers that a catalog in a database gives are 32 hexadecimal digits. They can be
the names of files (`StoredCatalog.isUsable_idText`), and the first `2 ^ 128` are all
different (`StoredCatalog.idText_inj`).
-/

namespace StreamCatalog

/-- Whether an identifier can be given. -/
structure IsUsable (id : String) : Prop where
  /-- It is one. -/
  ne_empty : id ≠ ""
  /-- It can be the name of a file. -/
  nameable : fileNameFault? (StoredCatalog.fileName id) = none

/-- Whether identifiers can be given so many times. -/
structure Supplies (ids : Nat → String) (count : Nat) : Prop where
  /-- Each can be given. -/
  isUsable : ∀ n < count, IsUsable (ids n)
  /-- No two are the same. -/
  inj : ∀ m < count, ∀ n < count, ids m = ids n → m = n

theorem Supplies.mono {ids : Nat → String} {count fewer : Nat} (h : Supplies ids count)
    (hle : fewer ≤ count) : Supplies ids fewer where
  isUsable n hn := h.isUsable n (Nat.lt_of_lt_of_le hn hle)
  inj m hm n hn := h.inj m (Nat.lt_of_lt_of_le hm hle) n (Nat.lt_of_lt_of_le hn hle)

/-- The number that hexadecimal digits stand for. -/
def ofHexDigits (cs : List Char) : Nat :=
  cs.foldl (fun n c => 16 * n + (Json.hexValue? c).getD 0) 0

theorem hexValue?_digitChar : ∀ n < 16, Json.hexValue? (Nat.digitChar n) = some n := by decide

theorem ofHexDigits_toDigits (n : Nat) : ofHexDigits (Nat.toDigits 16 n) = n := by
  induction n using Nat.base_induction 16 (by decide) with
  | single m hm =>
    rw [Nat.toDigits_of_lt_base hm, ofHexDigits, List.foldl_cons, hexValue?_digitChar m hm]
    simp
  | digit m k hk hm ih =>
    rw [← Nat.toDigits_append_toDigits (by decide) hm hk, Nat.toDigits_of_lt_base hk, ofHexDigits,
      List.foldl_append, ← ofHexDigits, ih, List.foldl_cons, hexValue?_digitChar k hk]
    rfl

theorem isHex_of_mem_toDigits (n : Nat) {c : Char} (hc : c ∈ Nat.toDigits 16 n) :
    (Json.hexValue? c).isSome := by
  induction n using Nat.base_induction 16 (by decide) with
  | single m hm =>
    rw [Nat.toDigits_of_lt_base hm, List.mem_singleton] at hc
    rw [hc, hexValue?_digitChar m hm]
    rfl
  | digit m k hk hm ih =>
    rw [← Nat.toDigits_append_toDigits (by decide) hm hk, Nat.toDigits_of_lt_base hk,
      List.mem_append, List.mem_singleton] at hc
    rcases hc with hc | hc
    · exact ih hc
    · rw [hc, hexValue?_digitChar k hk]
      rfl

/-- Leading zeros do not count. -/
theorem ofHexDigits_replicate_append (width : Nat) (cs : List Char) :
    ofHexDigits (List.replicate width '0' ++ cs) = ofHexDigits cs := by
  induction width with
  | zero => rfl
  | succ width ih => exact ih

/-- A character has at most four bytes. -/
theorem utf8ByteSize_le (s : String) : s.utf8ByteSize ≤ 4 * s.toList.length := by
  have hle (cs : List Char) : String.utf8Len cs ≤ 4 * cs.length := by
    induction cs with
    | nil => exact Nat.le_refl 0
    | cons c cs ih =>
      have hc := c.utf8Size_le_four
      rw [String.utf8Len_cons, List.length_cons]
      omega
  conv_lhs => rw [← String.ofList_toList (s := s)]
  rw [String.utf8ByteSize_ofList]
  exact hle s.toList

namespace StoredCatalog

/-- An identifier tells its number, spread over all identifiers. -/
theorem ofHexDigits_idText (n : Nat) :
    ofHexDigits (idText n).toList = (n + 1) * idFactor % 2 ^ 128 := by
  rw [idText, String.toList_ofList, ofHexDigits_replicate_append, ofHexDigits_toDigits,
    Nat.one_shiftLeft]

theorem length_idText (n : Nat) : (idText n).toList.length = 32 := by
  have hlt : (n + 1) * idFactor % (1 <<< 128) < 16 ^ 32 := Nat.mod_lt _ (by decide)
  have hle := (Nat.length_toDigits_le_iff (by decide) (by decide)).2 hlt
  rw [idText, String.toList_ofList, List.length_append, List.length_replicate]
  omega

theorem isHex_of_mem_idText {n : Nat} {c : Char} (hc : c ∈ (idText n).toList) :
    (Json.hexValue? c).isSome := by
  rw [idText, String.toList_ofList, List.mem_append] at hc
  rcases hc with hc | hc
  · rw [List.eq_of_mem_replicate hc]
    rfl
  · exact isHex_of_mem_toDigits _ hc

theorem idText_inj {m n : Nat} (hm : m < 2 ^ 128) (hn : n < 2 ^ 128) (h : idText m = idText n) :
    m = n := by
  have hmod : (m + 1) * idFactor ≡ (n + 1) * idFactor [MOD 2 ^ 128] := by
    rw [Nat.ModEq, ← ofHexDigits_idText, ← ofHexDigits_idText, h]
  have hcoprime : Nat.Coprime (2 ^ 128) idFactor := by decide +kernel
  have hsucc : m + 1 ≡ n + 1 [MOD 2 ^ 128] := Nat.ModEq.cancel_right_of_coprime hcoprime hmod
  exact (Nat.ModEq.add_right_cancel' 1 hsucc).eq_of_lt_of_lt hm hn

theorem isUsable_idText (n : Nat) : IsUsable (idText n) where
  ne_empty h := by
    have hlength := length_idText n
    rw [h] at hlength
    cases hlength
  nameable := by
    have htoList : (fileName (idText n)).toList = (idText n).toList ++ ['.', 't', 's'] := by
      rw [fileName, String.toList_append]
      rfl
    have hslash : '/' ∉ (fileName (idText n)).toList := by
      intro hmem
      rw [htoList, List.mem_append] at hmem
      rcases hmem with hmem | hmem
      · exact absurd (isHex_of_mem_idText hmem) (by decide)
      · exact absurd hmem (by decide)
    have hsize : (fileName (idText n)).utf8ByteSize ≤ longestFileName := by
      refine Nat.le_trans (utf8ByteSize_le _) ?_
      rw [htoList, List.length_append, length_idText]
      decide
    rw [fileNameFault?, if_neg (by simpa using hslash), if_neg (Nat.not_lt.2 hsize)]

/-- The identifiers suffice for `2 ^ 128` records. -/
theorem supplies_idText : Supplies idText (2 ^ 128) where
  isUsable n _ := isUsable_idText n
  inj _ hm _ hn h := idText_inj hm hn h

end StoredCatalog

end StreamCatalog
