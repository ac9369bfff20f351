import StreamCatalog.Proofs.Klv.Framing

/-!
# What a search of a buffer owes

A search leaves no universal key out: each one starts an item, unless it stands
within a unit that was found before it (`Exhausts.reported`). The items stand in
the order of their keys, none begins before the one before it has ended, and an
item is a fault exactly where no length can be read behind the key or the length
runs past the buffer (`scan_exhausts`, for all buffers).
-/

namespace StreamCatalog.Klv

/-! ## Keys -/

/-- Two keys do not overlap: the first byte of the key stands nowhere else in it. -/
theorem add_keySize_le_of_lt {bs : Bytes} {i j : Nat} (hi : universalKey <+: bs.drop i)
    (hj : universalKey <+: bs.drop j) (hlt : i < j) : i + keySize ≤ j := by
  refine Nat.not_lt.1 fun hover => ?_
  obtain ⟨k, rfl⟩ : ∃ k, j = i + (k + 1) := ⟨j - i - 1, by omega⟩
  have hk : k + 1 < universalKey.length := by
    simp only [keySize] at hover
    omega
  have hinner : bs[i + (k + 1)]? = some universalKey[k + 1] := by
    have := List.prefix_iff_getElem?.1 hi (k + 1) hk
    rwa [List.getElem?_drop] at this
  have hfirst : bs[i + (k + 1)]? = some 0x06 := by
    have := List.prefix_iff_getElem?.1 hj 0 (by decide)
    rwa [List.getElem?_drop, Nat.add_zero] at this
  have hmem : (0x06 : UInt8) ∈ universalKey.tail := by
    have htail : universalKey.tail[k]? = some universalKey[k + 1] := by
      rw [List.getElem?_tail, List.getElem?_eq_getElem hk]
    exact List.mem_of_getElem? (htail.trans (hinner.symm.trans hfirst))
  exact absurd hmem (by decide)

/-- A key takes its bytes out of the buffer. -/
theorem add_keySize_le_length {bs : Bytes} {i : Nat} (h : universalKey <+: bs.drop i) :
    i + keySize ≤ bs.length := by
  have hle := h.length_le
  have hpos : 0 < universalKey.length := by decide
  rw [List.length_drop] at hle
  simp only [keySize]
  omega

/-! ## Lengths behind keys -/

/-- Whether no unit can be framed whose length field starts at `offset`: no length can be read
there, or it runs past the buffer. -/
def Unframeable (bs : Bytes) (offset : Nat) : Prop :=
  (∃ fault, Ber.decodeLength (bs.drop offset) = .error fault) ∨
    ∃ length size, Ber.decodeLength (bs.drop offset) = .ok (length, size) ∧
      bs.length < offset + size + length

/-- Framing fails exactly without a length that stays within the buffer. -/
theorem frameUnit_eq_error_iff {bs : Bytes} {offset : Nat} (hoffset : offset ≤ bs.length) :
    (∃ e, frameUnit offset (bs.drop offset) = .error e) ↔ Unframeable bs offset := by
  unfold frameUnit Unframeable
  cases hlength : Ber.decodeLength (bs.drop offset) with
  | error fault => simp
  | ok read =>
    obtain ⟨length, size⟩ := read
    have hsize := (Ber.decodeLength_consumed hlength).2
    rw [List.length_drop] at hsize
    cases hvalue : Bytes.splitAt? length ((bs.drop offset).drop size) with
    | none =>
      have hshort := Bytes.splitAt?_eq_none_iff.1 hvalue
      rw [List.length_drop, List.length_drop] at hshort
      simp only [hvalue]
      exact ⟨fun _ => .inr ⟨length, size, rfl, by omega⟩, fun _ => ⟨_, rfl⟩⟩
    | some parts =>
      have hlong : ¬((bs.drop offset).drop size).length < length := by
        rw [← Bytes.splitAt?_eq_none_iff, hvalue]
        simp
      rw [List.length_drop, List.length_drop] at hlong
      simp only [hvalue]
      constructor
      · rintro ⟨e, he⟩
        cases he
      · rintro (⟨fault, hfault⟩ | ⟨_, _, hread, hlt⟩)
        · cases hfault
        · cases hread
          omega

/-! ## Items and their places -/

/-- An item of a search and the place of its key. -/
structure Finding where
  /-- Where the key starts. -/
  start : Nat
  /-- The unit, or why there is none. -/
  item : Except Error Unit

namespace Finding

/-- Where the search goes on: behind a unit, or just behind the key. -/
def stop (f : Finding) : Nat :=
  f.start + match f.item with
    | .ok unit => unit.bytes.length
    | .error _ => keySize

@[simp] theorem stop_ok (start : Nat) (unit : Unit) :
    (Finding.mk start (.ok unit)).stop = start + unit.bytes.length :=
  rfl

@[simp] theorem stop_error (start : Nat) (e : Error) :
    (Finding.mk start (.error e)).stop = start + keySize :=
  rfl

/-- Whether a place is within the unit, behind its start. -/
def Within (f : Finding) (i : Nat) : Prop :=
  (∃ unit, f.item = .ok unit) ∧ f.start < i ∧ i < f.stop

end Finding

/-- What a search of `bs` from `offset` on owes: `findings` are its items. -/
structure Exhausts (bs : Bytes) (offset : Nat) (findings : List Finding) : Prop where
  /-- The search ends: each item takes a key. -/
  length_le : findings.length * keySize ≤ bs.length - offset
  /-- No item starts before the search. -/
  offset_le : ∀ f ∈ findings, offset ≤ f.start
  /-- The items come in the order of the buffer, and do not overlap. -/
  ordered : findings.Pairwise fun f g => f.stop ≤ g.start
  /-- Each item starts at a key and lies inside the buffer. -/
  key : ∀ f ∈ findings, universalKey <+: bs.drop f.start ∧ f.stop ≤ bs.length
  /-- A unit is what stands at its place, from the key on. -/
  unit : ∀ f ∈ findings, ∀ unit, f.item = .ok unit →
    universalKey <+: unit.bytes ∧ unit.bytes <+: bs.drop f.start
  /-- An item is a fault exactly where no unit can be framed. -/
  fault_iff : ∀ f ∈ findings, (∃ e, f.item = .error e) ↔ Unframeable bs (f.start + keySize)
  /-- A key starts exactly one item and is within no unit, or starts none and is within a unit. -/
  reported : ∀ i, offset ≤ i → universalKey <+: bs.drop i →
    ((findings.map Finding.start).count i = 1 ∧ ¬∃ f ∈ findings, f.Within i) ∨
      ((findings.map Finding.start).count i = 0 ∧ ∃ f ∈ findings, f.Within i)

namespace Exhausts

variable {bs : Bytes} {offset : Nat} {findings : List Finding}

/-- At the end of the buffer nothing is found. -/
theorem nil (h : bs.length ≤ offset) : Exhausts bs offset [] where
  length_le := by simp
  offset_le := by simp
  ordered := .nil
  key := by simp
  unit := by simp
  fault_iff := by simp
  reported := by
    intro i hi hkey
    have := add_keySize_le_length hkey
    have hpos : 0 < keySize := by decide
    omega

/-- A place without a key is passed. -/
theorem skip (hnone : ¬universalKey <+: bs.drop offset) (h : Exhausts bs (offset + 1) findings) :
    Exhausts bs offset findings where
  length_le := by
    have := h.length_le
    omega
  offset_le := by
    intro f hf
    have := h.offset_le f hf
    omega
  ordered := h.ordered
  key := h.key
  unit := h.unit
  fault_iff := h.fault_iff
  reported := by
    intro i hi hkey
    have hne : offset ≠ i := by
      rintro rfl
      exact hnone hkey
    exact h.reported i (by omega) hkey

/-- No item that is found from `offset` on starts before it. -/
theorem count_start_eq_zero (h : Exhausts bs offset findings) {i : Nat} (hi : i < offset) :
    (findings.map Finding.start).count i = 0 := by
  rw [List.count_eq_zero, List.mem_map]
  rintro ⟨f, hf, rfl⟩
  have := h.offset_le f hf
  omega

/-- Nothing before `offset` is within a unit that is found from there on. -/
theorem not_within (h : Exhausts bs offset findings) {i : Nat} (hi : i ≤ offset) :
    ¬∃ f ∈ findings, f.Within i := by
  rintro ⟨f, hf, -, hstart, -⟩
  have := h.offset_le f hf
  omega

/-- A key that starts before an item ends, and behind its start, is within a unit: a fault takes
no more than a key. -/
theorem within_of_lt {f : Finding} {i : Nat} (hkey : universalKey <+: bs.drop f.start)
    (hkeyi : universalKey <+: bs.drop i) (hstart : f.start < i) (hstop : i < f.stop) :
    f.Within i := by
  refine ⟨?_, hstart, hstop⟩
  cases hitem : f.item with
  | ok unit => exact ⟨unit, rfl⟩
  | error e =>
    have hle := add_keySize_le_of_lt hkey hkeyi hstart
    obtain ⟨start, item⟩ := f
    subst hitem
    exact absurd hstop (Nat.not_lt.2 hle)

/-- A key gives one item, and the search goes on where the item ends. -/
theorem cons {f : Finding} (hkey : universalKey <+: bs.drop f.start)
    (hstop : f.start + keySize ≤ f.stop ∧ f.stop ≤ bs.length)
    (hunit : ∀ unit, f.item = .ok unit →
      universalKey <+: unit.bytes ∧ unit.bytes <+: bs.drop f.start)
    (hfault : (∃ e, f.item = .error e) ↔ Unframeable bs (f.start + keySize))
    (h : Exhausts bs f.stop findings) : Exhausts bs f.start (f :: findings) where
  length_le := by
    have := h.length_le
    rw [List.length_cons, Nat.succ_mul]
    omega
  offset_le := by
    intro g hg
    rcases List.mem_cons.1 hg with rfl | hg
    · exact Nat.le_refl _
    · have := h.offset_le g hg
      omega
  ordered := List.pairwise_cons.2 ⟨h.offset_le, h.ordered⟩
  key := List.forall_mem_cons.2 ⟨⟨hkey, hstop.2⟩, h.key⟩
  unit := List.forall_mem_cons.2 ⟨hunit, h.unit⟩
  fault_iff := List.forall_mem_cons.2 ⟨hfault, h.fault_iff⟩
  reported := by
    intro i hi hkeyi
    have hpos : 0 < keySize := by decide
    rw [List.map_cons, List.count_cons]
    rcases Nat.lt_or_ge i f.stop with hlt | hge
    · have hcount := h.count_start_eq_zero hlt
      have hlater := h.not_within (Nat.le_of_lt hlt)
      rcases Nat.eq_or_lt_of_le hi with rfl | hstart
      · refine .inl ⟨by simp [hcount], ?_⟩
        rintro ⟨g, hg, hwithin⟩
        rcases List.mem_cons.1 hg with rfl | hg
        · exact Nat.lt_irrefl _ hwithin.2.1
        · exact hlater ⟨g, hg, hwithin⟩
      · refine .inr ⟨?_, f, List.mem_cons_self, within_of_lt hkey hkeyi hstart hlt⟩
        rw [hcount, if_neg (by simpa using Nat.ne_of_lt hstart)]
    · have hne : (f.start == i) = false := by
        simp
        omega
      have hfirst : ¬f.Within i := fun hwithin => Nat.not_lt.2 hge hwithin.2.2
      rw [hne]
      rcases h.reported i hge hkeyi with ⟨hcount, hnone⟩ | ⟨hcount, g, hg, hwithin⟩
      · refine .inl ⟨hcount, ?_⟩
        rintro ⟨g, hg, hwithin⟩
        rcases List.mem_cons.1 hg with rfl | hg
        · exact hfirst hwithin
        · exact hnone ⟨g, hg, hwithin⟩
      · exact .inr ⟨hcount, g, List.mem_cons_of_mem _ hg, hwithin⟩

end Exhausts

/-! ## The search -/

/-- At a key one item is found, which tells what stands behind the key, and the search goes on
where the item ends. -/
theorem exists_finding {bs : Bytes} {offset : Nat} (hkey : universalKey <+: bs.drop offset) :
    ∃ f : Finding, f.start = offset ∧
      scanFrom offset (bs.drop offset) = f.item :: scanFrom f.stop (bs.drop f.stop) ∧
      (offset + keySize ≤ f.stop ∧ f.stop ≤ bs.length) ∧
      (∀ unit, f.item = .ok unit → universalKey <+: unit.bytes ∧ unit.bytes <+: bs.drop offset) ∧
      ((∃ e, f.item = .error e) ↔ Unframeable bs (offset + keySize)) := by
  have hsize := add_keySize_le_length hkey
  have hfault := frameUnit_eq_error_iff hsize
  obtain ⟨body, hbody⟩ := hkey
  have hdrop : bs.drop (offset + keySize) = body := by
    rw [← List.drop_drop, ← hbody]
    exact List.drop_left
  have hlength : bs.length = offset + keySize + body.length := by
    have := congrArg List.length hdrop
    rw [List.length_drop] at this
    omega
  rw [hdrop] at hfault
  rw [← hbody, scanFrom_key]
  cases hframe : frameUnit (offset + keySize) body with
  | error e =>
    refine ⟨⟨offset, .error e⟩, rfl, ?_, ⟨Nat.le_refl _, hsize⟩, by simp, ?_⟩
    · rw [Finding.stop_error, hdrop]
    · simp [← hfault, hframe]
  | ok found =>
    obtain ⟨unit, n⟩ := found
    obtain ⟨length, size, -, -, hle, hbytes⟩ := frameUnit_eq_ok hframe
    have hstop : (Finding.mk offset (.ok unit)).stop = offset + keySize + n := by
      rw [Finding.stop_ok, hbytes, List.length_append, List.length_take, Nat.min_eq_left hle,
        Nat.add_assoc, keySize]
    refine ⟨⟨offset, .ok unit⟩, rfl, ?_, ⟨by omega, by omega⟩, ?_, ?_⟩
    · rw [hstop, ← List.drop_drop, hdrop]
    · rintro _ ⟨rfl⟩
      rw [hbytes]
      exact ⟨List.prefix_append .., (List.prefix_append_right_inj _).2 (List.take_prefix ..)⟩
    · simp [← hfault, hframe]

/-- A search from any place on owes nothing. -/
theorem scanFrom_exhausts {bs : Bytes} {offset : Nat} (hoffset : offset ≤ bs.length) :
    ∃ findings : List Finding, findings.map Finding.item = scanFrom offset (bs.drop offset) ∧
      Exhausts bs offset findings := by
  -- On what is left of the buffer: a key takes its item out of it, any other byte is passed.
  induction hn : bs.length - offset using Nat.strongRecOn generalizing offset with
  | ind n ih =>
    subst hn
    rcases Nat.eq_or_lt_of_le hoffset with rfl | hlt
    · refine ⟨[], ?_, .nil (Nat.le_refl _)⟩
      rw [List.drop_length, scanFrom]
      rfl
    · by_cases hkey : universalKey <+: bs.drop offset
      · obtain ⟨f, rfl, hscan, hstop, hunit, hfault⟩ := exists_finding hkey
        have hpos : 0 < keySize := by decide
        obtain ⟨findings, hfindings, h⟩ := ih (bs.length - f.stop) (by omega) hstop.2 rfl
        refine ⟨f :: findings, ?_, .cons hkey hstop hunit hfault h⟩
        rw [hscan, List.map_cons, hfindings]
      · obtain ⟨findings, hfindings, h⟩ := ih (bs.length - (offset + 1)) (by omega) hlt rfl
        refine ⟨findings, ?_, h.skip hkey⟩
        rw [List.drop_eq_getElem_cons hlt] at hkey
        rw [List.drop_eq_getElem_cons hlt, scanFrom_cons_of_not_prefix offset hkey, hfindings]

/-- The items of any buffer have places at which they leave no key out: they are finitely many, in
order and disjoint, each starts at a key and inside the buffer, faults are exactly the keys without
a length that stays inside the buffer, and every key starts one item or is within a unit. -/
theorem scan_exhausts (bs : Bytes) :
    ∃ findings : List Finding, findings.map Finding.item = scan bs ∧ Exhausts bs 0 findings :=
  scanFrom_exhausts (Nat.zero_le _)

end StreamCatalog.Klv
