import StreamCatalog.Json.Parser
import StreamCatalog.Json.Printer

/-!
# Reading back JSON strings

What is written between the quotes of a string is read back as the string, and
the reader stops behind the closing quote (`readText_textChars`).
-/

namespace StreamCatalog.Json

/-- The characters between the quotes of a string. -/
def textChars (s : String) : List Char :=
  s.toList.flatMap escapeChar

/-- A string is written between quotes. -/
theorem toList_writeText (out s : String) :
    (writeText out s).toList = out.toList ++ '"' :: (textChars s ++ ['"']) := by
  have hpush (out : String) (cs : List Char) :
      (cs.foldl String.push out).toList = out.toList ++ cs := by
    induction cs generalizing out with
    | nil => simp
    | cons c cs ih => rw [List.foldl_cons, ih, String.toList_push, List.append_assoc]; rfl
  have hescape (out : String) (cs : List Char) :
      (cs.foldl (fun out c => (escapeChar c).foldl String.push out) out).toList =
        out.toList ++ cs.flatMap escapeChar := by
    induction cs generalizing out with
    | nil => simp
    | cons c cs ih => rw [List.foldl_cons, ih, hpush, List.append_assoc, List.flatMap_cons]
  rw [writeText, String.foldl_eq_foldl_toList, String.toList_push, hescape, String.toList_push,
    textChars, List.append_assoc, List.append_assoc]
  rfl

theorem hexValue?_hexDigit : ∀ n < 16, hexValue? (hexDigit n) = some n := by
  decide

/-- An escaped code unit that is no half of a pair is read as its character, whatever follows. -/
theorem readText_codeUnit {a b c d : Char} {n : Nat} (hn : hexWord? a b c d = some n)
    (hhigh : isHighSurrogate n = false) (hlow : isLowSurrogate n = false) (done rest : List Char) :
    readText done ('\\' :: 'u' :: a :: b :: c :: d :: rest) =
      readText (Char.ofNat n :: done) rest := by
  rw [readText.eq_def]
  split <;> grind

/-- A character that needs no escape is read as it is. -/
theorem readText_plain {c : Char} (hquote : c ≠ '"') (hback : c ≠ '\\') (hc : ¬c.toNat < 0x20)
    (done rest : List Char) : readText done (c :: rest) = readText (c :: done) rest := by
  rw [readText.eq_def]
  split <;> grind

/-- The code of a control character is read back. -/
theorem hexWord?_of_lt {n : Nat} (h : n < 0x20) :
    hexWord? '0' '0' (hexDigit (n / 16)) (hexDigit (n % 16)) = some n := by
  simp only [hexWord?, hexValue?_hexDigit _ (show n / 16 < 16 by omega),
    hexValue?_hexDigit _ (show n % 16 < 16 by omega)]
  simp [hexValue?]
  omega

/-- A character of a string is read back, whatever follows. -/
theorem readText_escapeChar (done : List Char) (c : Char) (rest : List Char) :
    readText done (escapeChar c ++ rest) = readText (c :: done) rest := by
  -- the characters with an escape of their own
  by_cases hnamed : c ∈ ['"', '\\', '\n', '\r', '\t', '\x08', '\x0c']
  · simp only [List.mem_cons, List.not_mem_nil, or_false] at hnamed
    rcases hnamed with rfl | rfl | rfl | rfl | rfl | rfl | rfl <;> rfl
  · simp only [List.mem_cons, List.not_mem_nil, or_false, not_or] at hnamed
    obtain ⟨hquote, hback, hline, hreturn, htab, hbackspace, hfeed⟩ := hnamed
    rw [escapeChar, if_neg hquote, if_neg hback, if_neg hline, if_neg hreturn, if_neg htab,
      if_neg hbackspace, if_neg hfeed]
    split
    case isTrue h =>
      have hhigh : isHighSurrogate c.toNat = false := by simp [isHighSurrogate]; omega
      have hlow : isLowSurrogate c.toNat = false := by simp [isLowSurrogate]; omega
      simpa using readText_codeUnit (hexWord?_of_lt h) hhigh hlow done rest
    case isFalse hc => exact readText_plain hquote hback hc done rest

/-- A string is read back up to its closing quote. -/
theorem readText_textChars (s : String) (rest : List Char) :
    readText [] (textChars s ++ '"' :: rest) = some (s, rest) := by
  have hread (cs done : List Char) : readText done (cs.flatMap escapeChar ++ '"' :: rest) =
      some (String.ofList (done.reverse ++ cs), rest) := by
    induction cs generalizing done with
    | nil => simp [readText]
    | cons c cs ih =>
      rw [List.flatMap_cons, List.append_assoc, readText_escapeChar, ih]
      simp
  simpa [textChars] using hread s.toList []

end StreamCatalog.Json
