import StreamCatalog.Proofs.Klv.RoundTrip

/-!
# Units between stuffing

The universal key has no border: no proper end of it is also a beginning of it.
So no key stands partly in stuffing and partly in the key behind the stuffing
(`key_prefix_of_append`), and a buffer of units with key-free stuffing around
them holds exactly those units, whatever their values are
(`Layout.scanFrom_bytes`). A stretch of a buffer that went bad costs no unit
behind it as long as none of the keys in it declares a length that ends behind
the stretch and still inside the buffer (`scan_damaged`).
-/

namespace StreamCatalog.Klv

/-! ## Where keys stand -/

/-- Whether no universal key stands in the bytes. -/
def KeyFree (bs : Bytes) : Prop :=
  ¬universalKey <:+: bs

instance (bs : Bytes) : Decidable (KeyFree bs) :=
  inferInstanceAs (Decidable ¬universalKey <:+: bs)

/-- Whether the bytes are the end of a buffer or start with a unit. -/
def StartsUnit (bs : Bytes) : Prop :=
  bs = [] ∨ universalKey <+: bs

theorem startsUnit_key (body : Bytes) : StartsUnit (universalKey ++ body) :=
  Or.inr (List.prefix_append ..)

/-- The key has no border: nothing that ends it, short of all of it, begins as a key does. -/
theorem eq_nil_of_border {b : UInt8} {bs excess more body : Bytes}
    (hkey : universalKey = b :: bs ++ excess) (hexcess : excess ++ more = universalKey ++ body) :
    excess = [] := by
  cases excess with
  | nil => rfl
  | cons c excess =>
    have hfirst : c = 0x06 := (List.cons.inj hexcess).1
    have htail : universalKey.tail = bs ++ c :: excess := congrArg List.tail hkey
    have hmem : (0x06 : UInt8) ∈ universalKey.tail := by
      rw [htail, ← hfirst]
      exact List.mem_append_right _ List.mem_cons_self
    exact absurd hmem (by decide)

/-- A key that begins before the start of a unit ends there at the latest. -/
theorem key_prefix_of_append {b : UInt8} {bs rest : Bytes} (hrest : StartsUnit rest)
    (h : universalKey <+: b :: bs ++ rest) : universalKey <+: b :: bs := by
  obtain ⟨later, hkey⟩ := h
  rcases List.append_eq_append_iff.1 hkey with ⟨more, hbs, -⟩ | ⟨excess, hexcess, hlater⟩
  · exact ⟨more, hbs.symm⟩
  · have hnil : excess = [] := by
      rcases hrest with rfl | ⟨body, rfl⟩
      · exact (List.append_eq_nil_iff.1 hlater.symm).1
      · exact eq_nil_of_border hexcess hlater.symm
    exact ⟨[], by rw [List.append_nil, hexcess, hnil, List.append_nil]⟩

/-- The search passes a byte at which no key stands. -/
theorem scanFrom_cons_of_not_prefix (offset : Nat) {b : UInt8} {bs : Bytes}
    (h : ¬universalKey <+: b :: bs) : scanFrom offset (b :: bs) = scanFrom (offset + 1) bs := by
  rw [scanFrom, if_neg (by rwa [List.isPrefixOf_iff_prefix])]

/-- The search passes stuffing without a key. -/
theorem scanFrom_stuffing (offset : Nat) {stuffing rest : Bytes} (h : KeyFree stuffing)
    (hrest : StartsUnit rest) :
    scanFrom offset (stuffing ++ rest) = scanFrom (offset + stuffing.length) rest := by
  induction stuffing generalizing offset with
  | nil => rfl
  | cons b stuffing ih =>
    have hnone : ¬universalKey <+: b :: (stuffing ++ rest) := by
      intro hkey
      exact h (key_prefix_of_append hrest hkey).isInfix
    have hlater : KeyFree stuffing := fun hkey => h (List.infix_cons hkey)
    rw [List.cons_append, scanFrom_cons_of_not_prefix offset hnone, ih (offset + 1) hlater,
      List.length_cons, Nat.add_assoc, Nat.add_comm 1]

/-! ## Units and stuffing in turn -/

/-- The unit that holds `value`. -/
def framed (value : Bytes) : Unit :=
  ⟨universalKey ++ Ber.encodeLength value.length, value⟩

theorem bytes_framed (value : Bytes) :
    (framed value).bytes = universalKey ++ (Ber.encodeLength value.length ++ value) :=
  List.append_assoc ..

/-- The bytes of a unit tell its value. -/
theorem eq_of_bytes_framed_eq {value other : Bytes} (hvalue : value.length < 2 ^ 32)
    (h : (framed value).bytes = (framed other).bytes) : value = other := by
  rw [bytes_framed, bytes_framed, List.append_cancel_left_eq] at h
  have hread := Ber.decodeLength_encodeLength hvalue value
  rw [h] at hread
  exact (List.append_inj h (Ber.size_of_decodeLength_encodeLength hread)).2

/-- A unit in a buffer and the stuffing before it. -/
structure Segment where
  /-- The stuffing. -/
  stuffing : Bytes
  /-- The value of the unit. -/
  value : Bytes
  /-- No key stands in the stuffing. -/
  stuffing_free : KeyFree stuffing
  /-- The length of the value can be written. -/
  length_lt : value.length < 2 ^ 32

namespace Segment

/-- The unit. -/
def unit (s : Segment) : Unit :=
  framed s.value

/-- The stuffing and the unit. -/
def bytes (s : Segment) : Bytes :=
  s.stuffing ++ s.unit.bytes

/-- A unit at the front is found, whatever follows. -/
theorem scanFrom_unit (offset : Nat) (s : Segment) (rest : Bytes) :
    scanFrom offset (s.unit.bytes ++ rest) =
      .ok s.unit :: scanFrom (offset + s.unit.bytes.length) rest := by
  have hlength : offset + keySize + ((Ber.encodeLength s.value.length).length + s.value.length) =
      offset + s.unit.bytes.length := by
    simp only [unit, bytes_framed, List.length_append, keySize, Nat.add_assoc]
  rw [← hlength, unit, bytes_framed, scanFrom_framed offset s.length_lt rest, framed]

/-- A unit behind its stuffing is found, whatever follows. -/
theorem scanFrom_bytes (offset : Nat) (s : Segment) (rest : Bytes) :
    scanFrom offset (s.bytes ++ rest) = .ok s.unit :: scanFrom (offset + s.bytes.length) rest := by
  have hstarts : StartsUnit (s.unit.bytes ++ rest) := by
    rw [unit, bytes_framed, List.append_assoc]
    exact startsUnit_key _
  rw [bytes, List.append_assoc, scanFrom_stuffing offset s.stuffing_free hstarts, scanFrom_unit,
    List.length_append, Nat.add_assoc]

/-- Units behind one another are found in order, whatever follows them. -/
theorem scanFrom_flatMap_bytes (offset : Nat) (segments : List Segment) (rest : Bytes) :
    scanFrom offset (segments.flatMap bytes ++ rest) =
      segments.map (fun s => .ok s.unit) ++
        scanFrom (offset + (segments.flatMap bytes).length) rest := by
  induction segments generalizing offset with
  | nil => rfl
  | cons s segments ih =>
    rw [List.flatMap_cons, List.append_assoc, scanFrom_bytes, ih, List.map_cons, List.cons_append,
      List.length_append, Nat.add_assoc]

end Segment

/-- Units with stuffing before, between and after them. -/
structure Layout where
  /-- The units, each with the stuffing before it. -/
  segments : List Segment
  /-- The stuffing after the last unit. -/
  tail : Bytes
  /-- No key stands in the last stuffing. -/
  tail_free : KeyFree tail

namespace Layout

/-- The buffer. -/
def bytes (l : Layout) : Bytes :=
  l.segments.flatMap Segment.bytes ++ l.tail

/-- The units are found in order. -/
theorem scanFrom_bytes (offset : Nat) (l : Layout) :
    scanFrom offset l.bytes = l.segments.map fun s => .ok s.unit := by
  have htail (position : Nat) : scanFrom position l.tail = [] := by
    have hpassed := scanFrom_stuffing position l.tail_free (Or.inl rfl)
    rwa [List.append_nil, scanFrom] at hpassed
  rw [bytes, Segment.scanFrom_flatMap_bytes, htail, List.append_nil]

/-- A buffer of units with key-free stuffing before, between and after them holds exactly these
units, whatever their values are; and a unit that was written for a local set is read back to the
items of the local set and its checksum. -/
theorem scan_bytes (l : Layout) :
    scan l.bytes = l.segments.map (fun s => .ok s.unit) ∧
      ∀ s ∈ l.segments, ∀ items : List Item, (∀ i ∈ items, i.tag < 2 ^ 28) →
        s.unit.bytes = encodeUnit items →
          s.unit.localSet = .ok (items ++ [checksumItem items]) := by
  refine ⟨scanFrom_bytes 0 l, ?_⟩
  intro s _ items htag hbytes
  rw [encodeUnit_eq] at hbytes
  have hvalue : s.value = unitValue items := eq_of_bytes_framed_eq s.length_lt hbytes
  have hreadable := isReadable_of_length_lt htag (hvalue ▸ s.length_lt)
  rw [show s.unit = unitOf items from congrArg framed hvalue]
  exact localSet_unitOf hreadable

/-- A value that is itself a key, stuffing that breaks off within a key, and a local set. -/
theorem scan_bytes_of_key_in_value :
    let items : List Item := [⟨65, [13]⟩, ⟨200, universalKey⟩]
    let l : Layout :=
      { segments :=
          [⟨[0x06, 0x0E], universalKey, by decide, by decide⟩,
            ⟨universalKey.take 15, unitValue items, by decide, by decide +kernel⟩]
        tail := universalKey.take 15
        tail_free := by decide }
    scan l.bytes = [.ok (framed universalKey), .ok (unitOf items)] ∧
      (unitOf items).localSet = .ok (items ++ [checksumItem items]) := by
  intro items l
  obtain ⟨hscan, hset⟩ := l.scan_bytes
  refine ⟨hscan, hset _ (List.mem_cons_of_mem _ List.mem_cons_self) items ?_ ?_⟩
  · decide
  · exact (encodeUnit_eq items).symm

/-- The stuffing before the first unit, or all there is. -/
def lead : Layout → Bytes
  | ⟨[], tail, _⟩ => tail
  | ⟨s :: _, _, _⟩ => s.stuffing

/-- What follows from the first unit on. -/
def fromUnit : Layout → Bytes
  | ⟨[], _, _⟩ => []
  | ⟨s :: segments, tail, _⟩ => s.unit.bytes ++ (segments.flatMap Segment.bytes ++ tail)

theorem bytes_eq (l : Layout) : l.bytes = l.lead ++ l.fromUnit := by
  obtain ⟨segments, tail, hfree⟩ := l
  cases segments with
  | nil => exact (List.append_nil tail).symm
  | cons s segments =>
    simp only [bytes, lead, fromUnit, List.flatMap_cons, Segment.bytes, List.append_assoc]

theorem startsUnit_fromUnit (l : Layout) : StartsUnit l.fromUnit := by
  obtain ⟨segments, tail, hfree⟩ := l
  cases segments with
  | nil => exact Or.inl rfl
  | cons s segments =>
    rw [fromUnit, Segment.unit, bytes_framed, List.append_assoc]
    exact startsUnit_key _

theorem scanFrom_fromUnit (offset : Nat) (l : Layout) :
    scanFrom offset l.fromUnit = l.segments.map fun s => .ok s.unit := by
  obtain ⟨segments, tail, hfree⟩ := l
  cases segments with
  | nil =>
    rw [fromUnit, scanFrom]
    rfl
  | cons s segments =>
    rw [fromUnit, Segment.scanFrom_unit]
    exact congrArg _ (scanFrom_bytes _ ⟨segments, tail, hfree⟩)

end Layout

/-! ## Stretches that went bad -/

/-- Whether every key in `bs` that declares a length declares one that ends within `bs`, or only
behind all of `bs ++ rest`. -/
def Contained (bs rest : Bytes) : Prop :=
  ∀ front back, bs = front ++ (universalKey ++ back) →
    ∀ length size, Ber.decodeLength (back ++ rest) = .ok (length, size) →
      size + length ≤ back.length ∨ (back ++ rest).length < size + length

theorem Contained.of_append {front back rest : Bytes} (h : Contained (front ++ back) rest) :
    Contained back rest := by
  intro before after hback
  exact h (front ++ before) after (by rw [hback, List.append_assoc])

/-- Behind a key that no other follows, the length at that key decides. -/
theorem Contained.of_keyFree {body rest : Bytes} (hfree : KeyFree body)
    (h : ∀ length size, Ber.decodeLength (body ++ rest) = .ok (length, size) →
      size + length ≤ body.length ∨ (body ++ rest).length < size + length) :
    Contained (universalKey ++ body) rest := by
  intro front back hsplit
  cases front with
  | nil =>
    rw [List.nil_append, List.append_cancel_left_eq] at hsplit
    subst hsplit
    exact h
  | cons b front =>
    have hbody : ∃ more, body = more ++ (universalKey ++ back) := by
      rcases List.append_eq_append_iff.1 hsplit with ⟨more, -, hbody⟩ | ⟨excess, hexcess, hlater⟩
      · exact ⟨more, hbody⟩
      · have hnil : excess = [] := eq_nil_of_border hexcess hlater.symm
        rw [hnil, List.nil_append] at hlater
        exact ⟨[], hlater.symm⟩
    obtain ⟨more, rfl⟩ := hbody
    exact absurd (List.infix_append' ..) hfree

/-- What is framed is a readable length and as many bytes as it says. -/
theorem frameUnit_eq_ok {offset n : Nat} {bs : Bytes} {unit : Unit}
    (h : frameUnit offset bs = .ok (unit, n)) :
    ∃ length size, Ber.decodeLength bs = .ok (length, size) ∧ n = size + length ∧
      n ≤ bs.length ∧ unit.bytes = universalKey ++ bs.take n := by
  unfold frameUnit at h
  split at h
  · cases h
  · next length size hlength =>
    split at h
    · cases h
    · next value rest hvalue =>
      cases h
      obtain ⟨hsize, hrest⟩ := Bytes.splitAt?_eq_some_iff.1 hvalue
      have hread := (Ber.decodeLength_consumed hlength).2
      have hdrop := congrArg List.length hrest
      rw [List.length_drop, List.length_append] at hdrop
      refine ⟨length, size, hlength, rfl, by omega, ?_⟩
      rw [Unit.bytes, List.append_assoc, List.take_add, hrest, ← hsize, List.take_left]

/-- A key in a contained stretch gives one item, and the search goes on within the stretch. -/
theorem scanFrom_key_contained (offset : Nat) {back rest : Bytes}
    (h : Contained (universalKey ++ back) rest) :
    ∃ item n, n ≤ back.length ∧
      scanFrom offset (universalKey ++ (back ++ rest)) =
        item :: scanFrom (offset + keySize + n) (back.drop n ++ rest) ∧
      ∀ unit, item = .ok unit → unit.bytes <+: universalKey ++ back := by
  rw [scanFrom_key]
  cases hframe : frameUnit (offset + keySize) (back ++ rest) with
  | error e => exact ⟨.error e, 0, Nat.zero_le _, rfl, by simp⟩
  | ok found =>
    obtain ⟨unit, n⟩ := found
    obtain ⟨length, size, hread, rfl, hle, hbytes⟩ := frameUnit_eq_ok hframe
    have hends : size + length ≤ back.length := by
      rcases h [] back rfl length size hread with hends | hexcess
      · exact hends
      · omega
    refine ⟨.ok unit, size + length, hends, ?_, ?_⟩
    · simp only [List.drop_append_of_le_length hends]
    · rintro _ ⟨rfl⟩
      rw [hbytes, List.take_append_of_le_length hends]
      exact (List.prefix_append_right_inj _).2 (List.take_prefix ..)

/-- The search leaves a contained stretch at its end, and the units it finds there lie there. -/
theorem scanFrom_contained (offset : Nat) {bs rest : Bytes} (h : Contained bs rest)
    (hrest : StartsUnit rest) :
    ∃ found, scanFrom offset (bs ++ rest) = found ++ scanFrom (offset + bs.length) rest ∧
      ∀ unit, .ok unit ∈ found → unit.bytes <:+: bs := by
  -- On the length of the stretch: a key takes its item out of it, any other byte is passed.
  induction hn : bs.length using Nat.strongRecOn generalizing offset bs with
  | ind n ih =>
    subst hn
    cases bs with
    | nil => exact ⟨[], rfl, by simp⟩
    | cons b bs =>
      by_cases hkey : universalKey <+: b :: bs
      · obtain ⟨back, hback⟩ := hkey
        rw [← hback] at h ih ⊢
        obtain ⟨item, n, hn, hitem, hunit⟩ := scanFrom_key_contained offset h
        have hlength : (universalKey ++ back).length = keySize + n + (back.drop n).length := by
          rw [List.length_append, List.length_drop, keySize]
          omega
        have hlater : universalKey ++ back = universalKey ++ back.take n ++ back.drop n := by
          rw [List.append_assoc, List.take_append_drop]
        have hpos : 0 < keySize := by decide
        obtain ⟨found, hfound, hunits⟩ := ih (back.drop n).length (by omega)
          (offset + keySize + n) (Contained.of_append (hlater ▸ h)) rfl
        refine ⟨item :: found, ?_, ?_⟩
        · rw [List.append_assoc, hitem, hfound, hlength, List.cons_append, Nat.add_assoc offset,
            Nat.add_assoc offset]
        · intro unit hmem
          rcases List.mem_cons.1 hmem with rfl | hmem
          · exact (hunit unit rfl).isInfix
          · rw [hlater]
            exact (hunits unit hmem).trans (List.suffix_append ..).isInfix
      · have hnone : ¬universalKey <+: b :: (bs ++ rest) := fun h =>
          hkey (key_prefix_of_append hrest h)
        have hlater : Contained bs rest :=
          Contained.of_append (show Contained ([b] ++ bs) rest from h)
        obtain ⟨found, hfound, hunits⟩ := ih bs.length (by simp) (offset + 1) hlater rfl
        refine ⟨found, ?_, ?_⟩
        · rw [List.cons_append, scanFrom_cons_of_not_prefix offset hnone, hfound,
            List.length_cons, Nat.add_assoc, Nat.add_comm 1]
        · intro unit hmem
          exact List.infix_cons (hunits unit hmem)

/-- The bytes behind the key of one unit are replaced, and no key from that unit on to the next
one declares a length that ends behind the start of the next unit and inside the buffer: all other
units are found, in order, and what is found besides them lies where bytes were replaced. -/
theorem scan_damaged (before : List Segment) {stuffing : Bytes} (hfree : KeyFree stuffing)
    (replaced : Bytes) (after : Layout)
    (h : Contained (universalKey ++ (replaced ++ after.lead)) after.fromUnit) :
    ∃ found,
      scan (before.flatMap Segment.bytes ++
          (stuffing ++ (universalKey ++ (replaced ++ after.bytes)))) =
        before.map (fun s => .ok s.unit) ++ found ++ after.segments.map (fun s => .ok s.unit) ∧
      ∀ unit, .ok unit ∈ found → unit.bytes <:+: universalKey ++ (replaced ++ after.lead) := by
  obtain ⟨found, hfound, hunits⟩ := scanFrom_contained
    (0 + (before.flatMap Segment.bytes).length + stuffing.length) h after.startsUnit_fromUnit
  refine ⟨found, ?_, hunits⟩
  rw [scan, Segment.scanFrom_flatMap_bytes, scanFrom_stuffing _ hfree (startsUnit_key _),
    after.bytes_eq, List.append_assoc, ← after.scanFrom_fromUnit]
  rw [List.append_assoc, List.append_assoc] at hfound
  rw [hfound]

end StreamCatalog.Klv
