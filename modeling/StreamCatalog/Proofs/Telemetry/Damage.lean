import StreamCatalog.Proofs.Klv.Framing
import StreamCatalog.Proofs.Telemetry.Intake

/-!
# Local sets beside a damaged unit

A damaged unit is passed over by itself: all other units of the buffer are
found, and give their samples, as long as no length that is declared from the
damaged unit on up to the next one leads into the units that follow. A length
that does lead there, and ends inside the buffer, takes those units along.
-/

namespace StreamCatalog.Telemetry

open Klv (Item KeyFree Contained Segment Layout scan encodeUnit unitOf unitValue universalKey
  keySize)

/-! ## Written local sets in a buffer -/

/-- A written local set in a buffer and the stuffing before it. -/
structure PlacedSet where
  /-- The stuffing. -/
  stuffing : Bytes
  /-- The items of the local set. -/
  items : List Item
  /-- No key stands in the stuffing. -/
  stuffing_free : KeyFree stuffing
  /-- Tags have at most four groups. -/
  tag_lt : ∀ i ∈ items, i.tag < 2 ^ 28
  /-- The length of the unit can be written. -/
  length_lt : (unitValue items).length < 2 ^ 32

namespace PlacedSet

/-- The stuffing and the written unit. -/
def bytes (s : PlacedSet) : Bytes :=
  s.stuffing ++ encodeUnit s.items

/-- The unit by its value. -/
def segment (s : PlacedSet) : Segment :=
  ⟨s.stuffing, unitValue s.items, s.stuffing_free, s.length_lt⟩

theorem flatMap_bytes_segment (sets : List PlacedSet) :
    (sets.map segment).flatMap Segment.bytes = sets.flatMap bytes := by
  rw [List.flatMap_map]
  congr 1
  funext s
  rw [bytes, Klv.encodeUnit_eq]
  rfl

/-- Local sets behind one another, with stuffing after the last. -/
def layout (sets : List PlacedSet) {tail : Bytes} (htail : KeyFree tail) : Layout :=
  ⟨sets.map segment, tail, htail⟩

theorem bytes_layout (sets : List PlacedSet) {tail : Bytes} (htail : KeyFree tail) :
    (layout sets htail).bytes = sets.flatMap bytes ++ tail := by
  rw [← flatMap_bytes_segment]
  rfl

/-- The search finds the units of placed local sets. -/
theorem map_unit_segment (sets : List PlacedSet) :
    (sets.map segment).map (fun s => (.ok s.unit : Except Klv.Error Klv.Unit)) =
      sets.map fun s => .ok (unitOf s.items) := by
  rw [List.map_map]
  rfl

/-- The units of placed local sets give their samples. -/
theorem samplesOf_units (sets : List PlacedSet) :
    samplesOf ((sets.map fun s => (.ok (unitOf s.items) : Except Klv.Error Klv.Unit)).map
      (·.bind Sample.ofUnit)) = sets.map fun s => Sample.ofItems s.items := by
  induction sets with
  | nil => rfl
  | cons s sets ih =>
    have hunit := ofUnit_unitOf (Klv.isReadable_of_length_lt s.tag_lt s.length_lt)
    rw [List.map_cons, List.map_cons, List.map_cons, ← ih, samplesOf,
      List.filterMap_cons_some (b := Sample.ofItems s.items) (by rw [Except.bind, hunit]; rfl)]
    rfl

end PlacedSet

theorem samplesOf_append (results more : List (Except Klv.Error Sample)) :
    samplesOf (results ++ more) = samplesOf results ++ samplesOf more :=
  List.filterMap_append ..

/-! ## Damage -/

/-- The bytes behind the key of one unit of a buffer of local sets are replaced, and no key from
that unit on to the next one declares a length that ends behind the start of the next unit and
inside the buffer: all other units are found unchanged and in order, what is found besides them
lies where bytes were replaced, and the others give their samples. -/
theorem samples_of_damaged (before after : List PlacedSet) {stuffing tail : Bytes}
    (hstuffing : KeyFree stuffing) (htail : KeyFree tail) (replaced : Bytes)
    (h : Contained (universalKey ++ (replaced ++ (PlacedSet.layout after htail).lead))
      (PlacedSet.layout after htail).fromUnit) :
    let buffer := before.flatMap PlacedSet.bytes ++
      (stuffing ++ (universalKey ++ (replaced ++ (after.flatMap PlacedSet.bytes ++ tail))))
    ∃ found : List (Except Klv.Error Klv.Unit),
      scan buffer = before.map (fun s => .ok (unitOf s.items)) ++ found ++
        after.map (fun s => .ok (unitOf s.items)) ∧
      (∀ unit, .ok unit ∈ found →
        unit.bytes <:+: universalKey ++ (replaced ++ (PlacedSet.layout after htail).lead)) ∧
      ∀ u : Pes.Unit, u.payload = buffer →
        samplesOf (decodeUnit u) = before.map (fun s => Sample.ofItems s.items) ++
          samplesOf (found.map (·.bind Sample.ofUnit)) ++
            after.map fun s => Sample.ofItems s.items := by
  intro buffer
  obtain ⟨found, hscan, hunits⟩ :=
    Klv.scan_damaged (before.map PlacedSet.segment) hstuffing replaced _ h
  rw [PlacedSet.flatMap_bytes_segment, PlacedSet.bytes_layout, PlacedSet.map_unit_segment] at hscan
  have hafter := PlacedSet.map_unit_segment after
  rw [show (PlacedSet.layout after htail).segments = after.map PlacedSet.segment from rfl,
    hafter] at hscan
  refine ⟨found, hscan, hunits, ?_⟩
  intro u hu
  rw [decodeUnit, hu, hscan, List.map_append, List.map_append, samplesOf_append, samplesOf_append,
    PlacedSet.samplesOf_units, PlacedSet.samplesOf_units]

/-- A unit between two others whose length went from seven to three. -/
theorem samples_of_shortened_unit :
    let set : PlacedSet := ⟨[0xFF, 0x06], [⟨3, [0x41]⟩], by decide, by decide, by decide +kernel⟩
    let replaced : Bytes := 0x03 :: (encodeUnit [⟨3, [0x41]⟩]).drop (keySize + 1)
    let buffer := [set].flatMap PlacedSet.bytes ++
      ([0xFF] ++ (universalKey ++ (replaced ++ ([set].flatMap PlacedSet.bytes ++ []))))
    ∃ found : List (Except Klv.Error Klv.Unit),
      scan buffer = [.ok (unitOf [⟨3, [0x41]⟩])] ++ found ++ [.ok (unitOf [⟨3, [0x41]⟩])] ∧
      (∀ unit, .ok unit ∈ found → unit.bytes <:+: universalKey ++ (replaced ++ [0xFF, 0x06])) ∧
      ∀ u : Pes.Unit, u.payload = buffer →
        samplesOf (decodeUnit u) = [Sample.ofItems [⟨3, [0x41]⟩]] ++
          samplesOf (found.map (·.bind Sample.ofUnit)) ++ [Sample.ofItems [⟨3, [0x41]⟩]] := by
  intro set replaced buffer
  refine samples_of_damaged [set] [set] (by decide) (by decide) replaced ?_
  apply Contained.of_keyFree
  · decide +kernel
  · intro length size hread
    have hshort (rest : Bytes) : Ber.decodeLength (0x03 :: rest) = .ok (3, 1) := by
      simp [Ber.decodeLength]
    rw [List.cons_append, List.cons_append, hshort] at hread
    cases hread
    exact Or.inl (by decide +kernel)

/-- Two local sets, the first of which declares a length that leads to the end of the second: no
key is new, but the second is not found. -/
theorem swallowed_unit_not_found :
    let written := encodeUnit [⟨3, [0x41]⟩]
    let replaced : Bytes := 0x1F :: written.drop (keySize + 1)
    let buffer := universalKey ++ (replaced ++ written)
    (universalKey ++ replaced).length = written.length ∧
      (∀ i, universalKey <+: buffer.drop i → universalKey <+: (written ++ written).drop i) ∧
      .ok (unitOf [⟨3, [0x41]⟩]) ∉ scan buffer := by
  intro written replaced buffer
  have hlength : buffer.length = 48 := by decide +kernel
  refine ⟨by decide +kernel, ?_, ?_⟩
  · intro i
    by_cases hi : i < 48
    · revert i
      decide +kernel
    · rw [List.drop_eq_nil_of_le (by omega)]
      intro hkey
      exact absurd hkey (by decide)
  · intro hmem
    have hframed : buffer = universalKey ++ (Ber.encodeLength (buffer.drop (keySize + 1)).length ++
        buffer.drop (keySize + 1)) ++ [] := by
      decide +kernel
    rw [hframed, scan, Klv.scanFrom_framed _ (by decide +kernel), Klv.scanFrom,
      List.mem_singleton] at hmem
    have hvalue := congrArg Klv.Unit.value (Except.ok.inj hmem)
    exact absurd hvalue (by decide +kernel)

end StreamCatalog.Telemetry
