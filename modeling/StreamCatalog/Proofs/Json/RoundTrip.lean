import StreamCatalog.Proofs.Json.Numbers
import StreamCatalog.Proofs.Json.Text

/-!
# Reading back JSON

What is written for a value is read back as the value, but for its numbers: each
number is what its own characters are read as (`renumber?`). A value that nests too
deep, or has a number that cannot be read, is not read back at all
(`parse?_compact`). All this holds however numbers are read as doubles.
-/

namespace StreamCatalog.Json

/-! ## What is written -/

mutual

/-- The characters of a value. -/
def chars : Json → List Char
  | .null => ['n', 'u', 'l', 'l']
  | .bool true => ['t', 'r', 'u', 'e']
  | .bool false => ['f', 'a', 'l', 's', 'e']
  | .int i => (toString i).toList
  | .decimal d => (d.text numberStyle).toList
  | .text s => '"' :: (textChars s ++ ['"'])
  | .array items => '[' :: (itemsChars true items ++ [']'])
  | .object members => '\x7b' :: (membersChars true members ++ ['\x7d'])

/-- The characters of the items of an array; `first` says that none precedes them. -/
def itemsChars (first : Bool) : List Json → List Char
  | [] => []
  | item :: rest => (if first then [] else [',']) ++ (chars item ++ itemsChars false rest)

/-- The characters of the members of an object; `first` says that none precedes them. -/
def membersChars (first : Bool) : List (String × Json) → List Char
  | [] => []
  | (name, value) :: rest =>
    (if first then [] else [',']) ++
      '"' :: (textChars name ++ '"' :: ':' :: (chars value ++ membersChars false rest))

end

mutual

theorem toList_write (out : String) : (j : Json) → (write out j).toList = out.toList ++ chars j
  | .null | .bool true | .bool false | .int i | .decimal d => String.toList_append
  | .text s => toList_writeText out s
  | .array items => by
    rw [write, String.toList_push, toList_writeItems, String.toList_push, chars]
    simp
  | .object members => by
    rw [write, String.toList_push, toList_writeMembers, String.toList_push, chars]
    simp

theorem toList_writeItems (out : String) (first : Bool) : (items : List Json) →
    (writeItems out first items).toList = out.toList ++ itemsChars first items
  | [] => (List.append_nil _).symm
  | item :: rest => by
    rw [writeItems, toList_writeItems, toList_write, itemsChars]
    cases first <;> simp

theorem toList_writeMembers (out : String) (first : Bool) : (members : List (String × Json)) →
    (writeMembers out first members).toList = out.toList ++ membersChars first members
  | [] => (List.append_nil _).symm
  | (name, value) :: rest => by
    rw [writeMembers, toList_writeMembers, toList_write, String.toList_push, toList_writeText,
      membersChars]
    cases first <;> simp

end

theorem toList_compact (j : Json) : j.compact.toList = chars j := by
  rw [compact, toList_write]
  rfl

/-- A number starts with a digit or a minus. -/
theorem IsNumber.exists_head {cs : List Char} (h : IsNumber cs) :
    ∃ c rest, cs = c :: rest ∧ (c.isDigit = true ∨ c = '-') := by
  obtain ⟨⟨negative, whole, fraction, power⟩, hdigits, hne, rfl⟩ := h
  cases negative with
  | true => exact ⟨'-', _, rfl, .inr rfl⟩
  | false =>
    cases whole with
    | nil => exact absurd rfl hne
    | cons d ds => exact ⟨d, _, rfl, .inl (hdigits.whole d List.mem_cons_self)⟩

theorem not_mem_of_startsNumber {c : Char} (hc : c.isDigit = true ∨ c = '-') (marks : List Char)
    (hmarks : marks.all (fun mark => !mark.isDigit && mark != '-') = true) : c ∉ marks := by
  intro hmem
  have hmark := List.all_eq_true.1 hmarks c hmem
  rcases hc with hc | rfl
  · simp [hc] at hmark
  · simp at hmark

/-- What a value starts with is no blank and closes no array. -/
theorem exists_chars_eq (j : Json) :
    ∃ c cs, chars j = c :: cs ∧ c ∉ [' ', '\n', '\t', '\r'] ∧ c ∉ [']'] := by
  have hnumber {cs : List Char} (h : IsNumber cs) :
      ∃ c rest, cs = c :: rest ∧ c ∉ [' ', '\n', '\t', '\r'] ∧ c ∉ [']'] := by
    obtain ⟨c, rest, rfl, hc⟩ := h.exists_head
    exact ⟨c, rest, rfl, not_mem_of_startsNumber hc _ rfl,
      not_mem_of_startsNumber hc _ rfl⟩
  cases j with
  | int i => exact hnumber (isNumber_toString i)
  | decimal d => exact hnumber (isNumber_text numberStyle d)
  | bool b => cases b <;> exact ⟨_, _, rfl, by decide, by decide⟩
  | _ => exact ⟨_, _, rfl, by decide, by decide⟩

theorem endsNumber_itemsChars (items : List Json) (rest : List Char) :
    EndsNumber (itemsChars false items ++ ']' :: rest) := by
  cases items with
  | nil => exact endsNumber_cons (by decide) _
  | cons item items => exact endsNumber_cons (by decide) _

theorem endsNumber_membersChars (members : List (String × Json)) (rest : List Char) :
    EndsNumber (membersChars false members ++ '\x7d' :: rest) := by
  cases members with
  | nil => exact endsNumber_cons (by decide) _
  | cons member members => exact endsNumber_cons (by decide) _

theorem skipBlanks_cons {c : Char} (h : c ∉ [' ', '\n', '\t', '\r']) (cs : List Char) :
    skipBlanks (c :: cs) = c :: cs :=
  List.dropWhile_cons_of_neg (by simpa [and_assoc] using h)

/-! ## Levels -/

mutual

/-- How deep a value nests. -/
def height : Json → Nat
  | .array items => itemsHeight items + 1
  | .object members => membersHeight members + 1
  | _ => 0

/-- How deep the items of an array nest. -/
def itemsHeight : List Json → Nat
  | [] => 0
  | item :: rest => max (height item) (itemsHeight rest)

/-- How deep the members of an object nest. -/
def membersHeight : List (String × Json) → Nat
  | [] => 0
  | (_, value) :: rest => max (height value) (membersHeight rest)

end

theorem membersHeight_le_iff {depth : Nat} : (members : List (String × Json)) →
    (membersHeight members ≤ depth ↔ ∀ p ∈ members, p.2.height ≤ depth)
  | [] => by simp [membersHeight]
  | (name, value) :: rest => by
    rw [membersHeight, Nat.max_le, membersHeight_le_iff rest, List.forall_mem_cons]

variable [NumberReader]

/-! ## What is read back -/

mutual

/-- What is read back for a value where so many levels may nest. -/
def reread? : Nat → Json → Option Json
  | _, .int i => (readNumber (toString i).toList).map (·.1)
  | _, .decimal d => (readNumber (d.text numberStyle).toList).map (·.1)
  | 0, .array _ | 0, .object _ => none
  | depth + 1, .array items => (rereadItems? depth items).map .array
  | depth + 1, .object members => (rereadMembers? depth members).map .object
  | _, j => some j

/-- What is read back for the items of an array. -/
def rereadItems? (depth : Nat) : List Json → Option (List Json)
  | [] => some []
  | item :: rest => do return (← reread? depth item) :: (← rereadItems? depth rest)

/-- What is read back for the members of an object. -/
def rereadMembers? (depth : Nat) : List (String × Json) → Option (List (String × Json))
  | [] => some []
  | (name, value) :: rest => do
    return (name, ← reread? depth value) :: (← rereadMembers? depth rest)

end

/-! ## Reading -/

/-- A number is read alike wherever it ends. -/
theorem IsNumber.readNumber_append {cs rest : List Char} (h : IsNumber cs)
    (hrest : EndsNumber rest) :
    readNumber (cs ++ rest) = (readNumber cs).map fun read => (read.1, rest) := by
  obtain ⟨n, hdigits, -, rfl⟩ := h
  have hend := Numeral.readNumber_chars hdigits endsNumber_nil
  rw [List.append_nil] at hend
  rw [Numeral.readNumber_chars hdigits hrest, hend, Option.map_map]
  rfl

/-- What starts like a number is read as one. -/
theorem readValue_number {c : Char} (hc : c.isDigit = true ∨ c = '-') (fuel depth : Nat)
    (cs : List Char) : readValue (fuel + 1) depth (c :: cs) = readNumber (c :: cs) := by
  rw [readValue, skipBlanks_cons (not_mem_of_startsNumber hc _ rfl)]
  split
  case h_7 => rfl
  all_goals
    rename_i heq
    obtain rfl := (List.cons.inj heq).1
    exact absurd List.mem_cons_self (not_mem_of_startsNumber hc [_] rfl)

/-- A number is read as a value wherever it ends. -/
theorem IsNumber.readValue_append {cs rest : List Char} (h : IsNumber cs) (hrest : EndsNumber rest)
    (fuel depth : Nat) :
    readValue (fuel + 1) depth (cs ++ rest) = (readNumber cs).map fun read => (read.1, rest) := by
  have hread := h.readNumber_append hrest
  obtain ⟨c, cs, rfl, hc⟩ := h.exists_head
  exact (readValue_number hc fuel depth (cs ++ rest)).trans hread

/-- An array whose first item starts here is read item by item. -/
theorem readValue_array {c : Char} (hblank : c ∉ [' ', '\n', '\t', '\r']) (hclose : c ∉ [']'])
    (fuel depth : Nat) (cs : List Char) :
    readValue (fuel + 1) (depth + 1) ('[' :: c :: cs) = readItems fuel depth [] (c :: cs) := by
  rw [readValue, skipBlanks_cons (by decide)]
  simp only [Nat.add_one_ne_zero, if_false, skipBlanks_cons hblank, Nat.add_sub_cancel]
  split
  case h_1 heq => exact absurd (List.mem_singleton.2 (List.cons.inj heq).1) hclose
  case h_2 => rfl

-- By recursion on the value. The fuel lasts as long as there is a unit of it for each character:
-- what the reader spends on a value, an item or a member goes with a character of its own.
mutual

/-- A value is read back, and the reader stops behind it. -/
theorem readValue_chars : (j : Json) → ∀ (fuel depth : Nat) {rest : List Char},
    EndsNumber rest → (chars j).length ≤ fuel →
      readValue fuel depth (chars j ++ rest) = (reread? depth j).map fun read => (read, rest)
  | j, 0, _, _, _, hfuel => by
    obtain ⟨c, cs, hcs, -⟩ := exists_chars_eq j
    rw [hcs] at hfuel
    cases hfuel
  | .null, _ + 1, _, _, _, _ | .bool true, _ + 1, _, _, _, _ | .bool false, _ + 1, _, _, _, _ => rfl
  | .int i, fuel + 1, depth, rest, hrest, _ => by
    rw [chars, reread?, Option.map_map]
    exact (isNumber_toString i).readValue_append hrest fuel depth
  | .decimal d, fuel + 1, depth, rest, hrest, _ => by
    rw [chars, reread?, Option.map_map]
    exact (isNumber_text numberStyle d).readValue_append hrest fuel depth
  | .text s, fuel + 1, depth, rest, _, _ => by
    rw [chars, List.cons_append, List.append_assoc]
    change (readText [] (textChars s ++ '"' :: rest)).map _ = _
    rw [readText_textChars]
    rfl
  | .array _, _ + 1, 0, _, _, _ | .object _, _ + 1, 0, _, _, _ => rfl
  | .array [], _ + 1, _ + 1, _, _, _ | .object [], _ + 1, _ + 1, _, _, _ => rfl
  | .array (item :: items), fuel + 1, depth + 1, rest, _, hfuel => by
    obtain ⟨c, cs, hcs, hblank, hclose⟩ := exists_chars_eq item
    have hitems := readItems_itemsChars (item :: items) (List.cons_ne_nil _ _) fuel depth [] rest
      (by simp [chars] at hfuel; omega)
    have hhead : itemsChars true (item :: items) ++ ']' :: rest =
        c :: (cs ++ (itemsChars false items ++ ']' :: rest)) := by
      simp [itemsChars, hcs]
    rw [chars, List.cons_append, List.append_assoc, List.singleton_append, hhead,
      readValue_array hblank hclose, ← hhead, hitems, reread?, Option.map_map]
    rfl
  | .object ((name, value) :: members), fuel + 1, depth + 1, rest, _, hfuel => by
    have hmembers := readMembers_membersChars ((name, value) :: members) (List.cons_ne_nil _ _)
      fuel depth [] rest (by simp [chars] at hfuel; omega)
    rw [chars, List.cons_append, List.append_assoc, List.singleton_append, reread?, Option.map_map]
    exact hmembers

/-- The items of an array are read back. -/
theorem readItems_itemsChars : (items : List Json) → items ≠ [] →
    ∀ (fuel depth : Nat) (done : List Json) (rest : List Char),
      (itemsChars true items).length < fuel →
        readItems fuel depth done (itemsChars true items ++ ']' :: rest) =
          (rereadItems? depth items).map fun read => (.array (done.reverse ++ read), rest)
  | [], hne, _, _, _, _, _ => absurd rfl hne
  | item :: items, _, 0, _, _, _, hfuel => absurd hfuel (Nat.not_lt_zero _)
  | item :: items, _, fuel + 1, depth, done, rest, hfuel => by
    simp only [itemsChars, if_true, List.nil_append, List.length_append] at hfuel
    have hitem := readValue_chars item fuel depth (endsNumber_itemsChars items rest) (by omega)
    simp only [itemsChars, if_true, List.nil_append, List.append_assoc, readItems, hitem,
      rereadItems?]
    cases reread? depth item with
    | none => rfl
    | some read =>
      cases items with
      | nil => simp [itemsChars, rereadItems?, skipBlanks_cons]
      | cons next items =>
        have hmore := readItems_itemsChars (next :: items) (List.cons_ne_nil _ _) fuel depth
          (read :: done) rest (by simp [itemsChars] at hfuel ⊢; omega)
        change readItems fuel depth (read :: done) (itemsChars true (next :: items) ++ ']' :: rest) = _
        rw [hmore]
        cases rereadItems? depth (next :: items) with
        | none => rfl
        | some reads => simp

/-- The members of an object are read back. -/
theorem readMembers_membersChars : (members : List (String × Json)) → members ≠ [] →
    ∀ (fuel depth : Nat) (done : List (String × Json)) (rest : List Char),
      (membersChars true members).length < fuel →
        readMembers fuel depth done (membersChars true members ++ '\x7d' :: rest) =
          (rereadMembers? depth members).map fun read => (.object (done.reverse ++ read), rest)
  | [], hne, _, _, _, _, _ => absurd rfl hne
  | (name, value) :: members, _, 0, _, _, _, hfuel => absurd hfuel (Nat.not_lt_zero _)
  | (name, value) :: members, _, fuel + 1, depth, done, rest, hfuel => by
    simp only [membersChars, if_true, List.nil_append, List.length_append, List.length_cons] at hfuel
    have hvalue := readValue_chars value fuel depth (endsNumber_membersChars members rest)
      (by omega)
    simp only [membersChars, if_true, List.nil_append, List.append_assoc, List.cons_append,
      readMembers]
    change (match readText [] (textChars name ++ '"' ::
      (':' :: (chars value ++ (membersChars false members ++ '\x7d' :: rest)))) with
      | none => none
      | some (name, rest) => _) = _
    rw [readText_textChars]
    change (match readValue fuel depth
      (chars value ++ (membersChars false members ++ '\x7d' :: rest)) with
      | none => none
      | some (value, rest) => _) = _
    rw [hvalue, rereadMembers?]
    cases reread? depth value with
    | none => rfl
    | some read =>
      cases members with
      | nil => simp [membersChars, rereadMembers?, skipBlanks_cons]
      | cons next members =>
        have hmore := readMembers_membersChars (next :: members) (List.cons_ne_nil _ _) fuel depth
          ((name, read) :: done) rest (by simp [membersChars] at hfuel ⊢; omega)
        change readMembers fuel depth ((name, read) :: done)
          (membersChars true (next :: members) ++ '\x7d' :: rest) = _
        rw [hmore]
        cases rereadMembers? depth (next :: members) with
        | none => rfl
        | some reads => simp

end

/-! ## Numbers -/

mutual

/-- A value with each number read from its own characters. -/
def renumber? : Json → Option Json
  | .int i => (readNumber (toString i).toList).map (·.1)
  | .decimal d => (readNumber (d.text numberStyle).toList).map (·.1)
  | .array items => (renumberItems? items).map .array
  | .object members => (renumberMembers? members).map .object
  | j => some j

/-- The items of an array with each number read from its own characters. -/
def renumberItems? : List Json → Option (List Json)
  | [] => some []
  | item :: rest => do return (← renumber? item) :: (← renumberItems? rest)

/-- The members of an object with each number read from its own characters. -/
def renumberMembers? : List (String × Json) → Option (List (String × Json))
  | [] => some []
  | (name, value) :: rest => do return (name, ← renumber? value) :: (← renumberMembers? rest)

end

mutual

theorem reread?_eq : (depth : Nat) → (j : Json) →
    reread? depth j = if height j ≤ depth then renumber? j else none
  | _, .null | _, .bool _ | _, .int _ | _, .decimal _ | _, .text _ => by
    simp [reread?, height, renumber?]
  | 0, .array _ | 0, .object _ => rfl
  | depth + 1, .array items => by
    rw [reread?, rereadItems?_eq, height, renumber?]
    by_cases h : itemsHeight items ≤ depth <;> simp [h]
  | depth + 1, .object members => by
    rw [reread?, rereadMembers?_eq, height, renumber?]
    by_cases h : membersHeight members ≤ depth <;> simp [h]

theorem rereadItems?_eq (depth : Nat) : (items : List Json) →
    rereadItems? depth items = if itemsHeight items ≤ depth then renumberItems? items else none
  | [] => by simp [rereadItems?, itemsHeight, renumberItems?]
  | item :: rest => by
    rw [rereadItems?, reread?_eq depth item, rereadItems?_eq depth rest, itemsHeight, renumberItems?]
    simp only [Nat.max_le]
    by_cases hitem : height item ≤ depth <;> by_cases hrest : itemsHeight rest ≤ depth <;>
      simp [hitem, hrest]

theorem rereadMembers?_eq (depth : Nat) : (members : List (String × Json)) →
    rereadMembers? depth members =
      if membersHeight members ≤ depth then renumberMembers? members else none
  | [] => by simp [rereadMembers?, membersHeight, renumberMembers?]
  | (name, value) :: rest => by
    rw [rereadMembers?, reread?_eq depth value, rereadMembers?_eq depth rest, membersHeight,
      renumberMembers?]
    simp only [Nat.max_le]
    by_cases hvalue : height value ≤ depth <;> by_cases hrest : membersHeight rest ≤ depth <;>
      simp [hvalue, hrest]

end

/-- What is written for a value is read back with its numbers read again, unless it nests too
deep. -/
theorem parse?_compact (j : Json) :
    parse? j.compact = if j.height ≤ maxDepth then j.renumber? else none := by
  have hread := readValue_chars j (2 * (chars j).length + 2) maxDepth endsNumber_nil (by omega)
  rw [List.append_nil] at hread
  rw [parse?, toList_compact, hread, ← reread?_eq]
  cases reread? maxDepth j with
  | none => rfl
  | some read => rfl

/-! ## Readers -/

/-- What a reader takes from a value whose numbers are read from their own characters. -/
def rereadAs {α : Type} (dec : Json → Option α) (j : Json) : Option α :=
  j.renumber?.bind dec

variable {α β γ : Type}

theorem rereadAs_map (dec : Json → Option α) (f : α → β) (j : Json) :
    j.rereadAs (fun j => (dec j).map f) = (j.rereadAs dec).map f := by
  rw [rereadAs, rereadAs, Option.map_bind]
  rfl

theorem rereadAs_text (dec : Json → Option α) (s : String) :
    (Json.text s).rereadAs dec = dec (.text s) :=
  rfl

/-- A whole number is read back as long as it fits a word. -/
theorem rereadAs_int? (i : Int) :
    (Json.int i).rereadAs int? = if leastInt ≤ i ∧ i ≤ greatestInt then some i else none := by
  have hread : (Json.int i).renumber? = (Numeral.ofInt i).value? := by
    have hchars := Numeral.readNumber_chars (Numeral.hasDigits_ofInt i) endsNumber_nil
    rw [List.append_nil] at hchars
    rw [renumber?, Numeral.toList_toString, hchars, Option.map_map]
    exact Option.map_id'
  rw [rereadAs, hread, Numeral.bind_value?_ofInt]

/-- Two members are read one by one. -/
theorem rereadAs_pair {name other : String} (f : Json → Option α) (g : Json → Option β)
    (make : α → β → γ) {dec : Json → Option γ}
    (hdec : ∀ a b, dec (.object [(name, a), (other, b)]) = do return make (← f a) (← g b))
    (a b : Json) : (Json.object [(name, a), (other, b)]).rereadAs dec = do
      return make (← a.rereadAs f) (← b.rereadAs g) := by
  simp only [rereadAs, renumber?, renumberMembers?]
  cases a.renumber? with
  | none => rfl
  | some a =>
    cases b.renumber? with
    | none => cases hf : f a <;> simp [hf]
    | some b => exact hdec a b

/-- Items are read one by one. -/
theorem rereadAs_items {enc : α → Json} {dec : Json → Option β} {f : α → Option β} :
    (as : List α) → (∀ a ∈ as, (enc a).rereadAs dec = f a) →
      (renumberItems? (as.map enc)).bind (·.mapM dec) = as.mapM f
  | [], _ => rfl
  | a :: as, h => by
    have ih := rereadAs_items as fun b hb => h b (List.mem_cons_of_mem _ hb)
    rw [List.mapM_cons, ← h a List.mem_cons_self, ← ih, List.map_cons, renumberItems?, rereadAs]
    cases (enc a).renumber? with
    | none => rfl
    | some j =>
      cases renumberItems? (as.map enc) with
      | none => cases hdec : dec j <;> simp [hdec]
      | some js => simp

/-- The items of an array are read one by one. -/
theorem rereadAs_array {enc : α → Json} {dec : Json → Option β} {f : α → Option β} {as : List α}
    (h : ∀ a ∈ as, (enc a).rereadAs dec = f a) :
    (Json.array (as.map enc)).rereadAs (fun j => do (← j.array?).mapM dec) = as.mapM f := by
  rw [← rereadAs_items as h, rereadAs, renumber?]
  cases renumberItems? (as.map enc) <;> rfl

/-- A reader of written values sees the value with each number read from its own characters. -/
theorem bind_parse?_compact {α : Type} (dec : Json → Option α) (j : Json) :
    (parse? j.compact).bind dec = if j.height ≤ maxDepth then j.rereadAs dec else none := by
  rw [parse?_compact, rereadAs]
  split <;> rfl

end StreamCatalog.Json
