import StreamCatalog.Proofs.Stream.Config

/-!
# Changing configurations

The properties that a configuration gives are read as that configuration again, so a change keeps
every field whose property it does not name, and two changes, one after the other, are the change
by both at once (`StreamConfig.merge_laws`). Each property is read for itself: a configuration is
made of what its properties are read as (`Reading`), and there the laws hold for each of them.
-/

namespace StreamCatalog

/-! ## Whole numbers of 64 bits -/

/-- Whether a value, if it is a whole number, has 64 bits. -/
def PropertyValue.Is64Bit : PropertyValue → Prop
  | integer i => -greatestInteger - 1 ≤ i ∧ i ≤ greatestInteger
  | _ => True

/-- Whether all whole numbers among properties have 64 bits. -/
def Properties.Are64Bit (ps : Properties) : Prop :=
  ∀ (name : String) (v : PropertyValue), ps[name]? = some v → v.Is64Bit

theorem Properties.Are64Bit.overlay {a b : Properties} (ha : a.Are64Bit) (hb : b.Are64Bit) :
    (a.overlay b).Are64Bit := by
  intro name v hv
  rw [getElem?_overlay, Option.or_eq_some_iff] at hv
  rcases hv with hv | ⟨-, hv⟩
  · exact hb name v hv
  · exact ha name v hv

/-! ## Values that are written and read again -/

namespace PropertyValue

/-- Whether what is read from a value is read again from the value that writes it. -/
def Restores {α : Type} (read : PropertyValue → Except Unexpected α) (write : α → PropertyValue) :
    Prop :=
  ∀ v a, read v = .ok a → read (write a) = .ok a

theorem restores_text : Restores readText text := fun _ _ _ => rfl

theorem restores_bool : Restores readBool bool := fun _ _ _ => rfl

/-- The whole number that a value is, or that it writes. -/
def wholeNumber : PropertyValue → Except Unexpected Int
  | integer i => .ok i
  | text s => ((integerOfText? s).map Except.ok).getD (.error (.text s))
  | v => .error (.value v)

theorem readNat_eq (v : PropertyValue) :
    v.readNat = v.wholeNumber >>= fun i => if i < 0 then .error (.integer i) else .ok i.toNat := by
  cases v <;> rfl

theorem readNat_integer (n : Nat) : readNat (integer n) = .ok n := by
  have hnonneg : ¬(n : Int) < 0 := Int.not_lt.2 (Int.natCast_nonneg n)
  have hread : (if (n : Int) < 0 then Except.error (Unexpected.integer n)
      else Except.ok (n : Int).toNat) = .ok n := if_neg hnonneg
  rw [readNat_eq]
  exact hread

theorem restores_nat : Restores readNat fun n => integer n := fun _ n _ => readNat_integer n

theorem readPositive_integer {n : Nat} (h : n ≠ 0) : readPositive (integer n) = .ok n := by
  rw [readPositive, readNat_integer]
  exact if_neg h

theorem readPositive_eq_ok {v : PropertyValue} {n : Nat} (h : v.readPositive = .ok n) :
    v.readNat = .ok n ∧ n ≠ 0 := by
  rw [readPositive] at h
  obtain ⟨m, hm, h⟩ := exists_of_bind_eq_ok h
  split at h
  · cases h
  next hne =>
    cases h
    exact ⟨hm, hne⟩

theorem restores_positive : Restores readPositive fun n => integer n := fun _ _ h =>
  readPositive_integer (readPositive_eq_ok h).2

/-- The number that a value is, or that it writes. -/
def number : PropertyValue → Except Unexpected Float
  | float x => .ok x
  | integer i => .ok (Float.ofInt i)
  | text s => ((floatOfText? (Text.trim s)).map Except.ok).getD (.error (.text s))
  | v => .error (.value v)

theorem readDistance_eq (v : PropertyValue) :
    v.readDistance =
      v.number >>= fun x => if x.isFinite && !(x < 0.0) then .ok x else .error (.float x) := by
  cases v <;> rfl

theorem readDistance_float {x : Float} (h : (x.isFinite && !(x < 0.0)) = true) :
    readDistance (float x) = .ok x :=
  (readDistance_eq (float x)).trans (if_pos h)

theorem restores_distance : Restores readDistance float := by
  intro v x h
  rw [readDistance_eq] at h
  obtain ⟨y, -, h⟩ := exists_of_bind_eq_ok h
  split at h
  next hy =>
    cases h
    exact readDistance_float hy
  · cases h

theorem wholeNumber_le {v : PropertyValue} {i : Int} (hv : v.Is64Bit)
    (h : v.wholeNumber = .ok i) : i ≤ greatestInteger := by
  cases v with
  | integer j =>
    cases h
    exact hv.2
  | text s =>
    rw [wholeNumber] at h
    cases htext : integerOfText? s with
    | none =>
      rw [htext] at h
      cases h
    | some j =>
      rw [htext] at h
      cases h
      exact (of_decide_eq_true (Option.filter_eq_some_iff.1 htext).2).2
  | bool | float => cases h

/-- A whole number that is read has 64 bits. -/
theorem readNat_le {v : PropertyValue} {n : Nat} (hv : v.Is64Bit) (h : v.readNat = .ok n) :
    n ≤ greatestInteger := by
  rw [readNat_eq] at h
  obtain ⟨i, hi, h⟩ := exists_of_bind_eq_ok h
  have hle := wholeNumber_le hv hi
  have hgreatest : (0 : Int) ≤ greatestInteger := by decide
  split at h
  · cases h
  · cases h
    omega

end PropertyValue

/-! ## What properties are read as -/

namespace StreamConfig

section

variable {α : Type} {read : PropertyValue → Except Unexpected α} {write : α → PropertyValue}
  {ps qs : Properties} {name : String}

theorem read?_eq_ok_none_iff : read? ps name read = .ok none ↔ ps[name]? = none := by
  rw [read?]
  cases ps[name]? with
  | none => exact iff_of_true rfl rfl
  | some v =>
    simp only [reduceCtorEq, iff_false]
    cases read v <;> nofun

theorem read?_eq_ok_some_iff {a : α} :
    read? ps name read = .ok (some a) ↔ ∃ v, ps[name]? = some v ∧ read v = .ok a := by
  rw [read?]
  cases ps[name]? with
  | none => exact iff_of_false nofun nofun
  | some v =>
    simp only [Option.some.injEq, exists_eq_left']
    cases read v with
    | error e => exact iff_of_false nofun nofun
    | ok b => exact ⟨fun h => by cases h; rfl, fun h => by cases h; rfl⟩

theorem readOr_eq_ok_iff {a standard : α} :
    readOr ps name read standard = .ok a ↔
      ∃ value, read? ps name read = .ok value ∧ value.getD standard = a := by
  rw [readOr]
  cases read? ps name read <;> simp [Except.map]

/-- A property that is read is read again from the value that writes it. -/
theorem read?_restored (hrestores : PropertyValue.Restores read write) {value : Option α}
    (h : read? ps name read = .ok value) (hwritten : qs[name]? = value.map write) :
    read? qs name read = .ok value := by
  cases value with
  | none => exact read?_eq_ok_none_iff.2 hwritten
  | some a =>
    obtain ⟨v, -, hv⟩ := read?_eq_ok_some_iff.1 h
    exact read?_eq_ok_some_iff.2 ⟨_, hwritten, hrestores v a hv⟩

/-- A property that is read or has a standard value is read again from the value that writes it. -/
theorem readOr_restored (hrestores : PropertyValue.Restores read write) {a standard : α}
    (hstandard : read (write standard) = .ok standard)
    (h : readOr ps name read standard = .ok a) (hwritten : qs[name]? = some (write a)) :
    readOr qs name read standard = .ok a := by
  obtain ⟨value, hvalue, rfl⟩ := readOr_eq_ok_iff.1 h
  refine readOr_eq_ok_iff.2 ⟨some (value.getD standard), read?_eq_ok_some_iff.2 ⟨_, hwritten, ?_⟩, rfl⟩
  cases value with
  | none => exact hstandard
  | some a =>
    obtain ⟨v, -, hv⟩ := read?_eq_ok_some_iff.1 hvalue
    exact hrestores v a hv

theorem getElem?_overlay_of_mem (ps : Properties) (h : name ∈ qs) :
    (ps.overlay qs)[name]? = qs[name]? := by
  obtain ⟨v, hv⟩ := Option.isSome_iff_exists.1 (Std.ExtTreeMap.mem_iff_isSome_getElem?.1 h)
  rw [Properties.getElem?_overlay, hv, Option.some_or]

theorem getElem?_overlay_of_notMem (ps : Properties) (h : name ∉ qs) :
    (ps.overlay qs)[name]? = ps[name]? := by
  rw [Properties.getElem?_overlay, Std.ExtTreeMap.getElem?_eq_none h, Option.none_or]

/-- A property is read from the properties that are laid over others, or else from these. -/
theorem read?_overlay (ps qs : Properties) (name : String)
    (read : PropertyValue → Except Unexpected α) :
    read? (ps.overlay qs) name read = if name ∈ qs then read? qs name read else read? ps name read := by
  by_cases h : name ∈ qs
  · rw [if_pos h, read?, getElem?_overlay_of_mem ps h, read?]
  · rw [if_neg h, read?, getElem?_overlay_of_notMem ps h, read?]

theorem readOr_overlay (ps qs : Properties) (name : String)
    (read : PropertyValue → Except Unexpected α) (standard : α) :
    readOr (ps.overlay qs) name read standard =
      if name ∈ qs then readOr qs name read standard else readOr ps name read standard := by
  rw [readOr, read?_overlay, readOr, readOr]
  split <;> rfl

end

/-- What the properties of a stream are read as, each for itself. -/
structure Reading where
  /-- The title. -/
  title : Except ConfigError (Option String)
  /-- The address. -/
  monitoredAddress : Except ConfigError (Option String)
  /-- How many bytes close a chunk. -/
  byteCount : Except ConfigError Nat
  /-- After how many milliseconds a chunk is closed. -/
  elapsedTime : Except ConfigError Nat
  /-- After how many milliseconds without data a chunk is closed. -/
  idleTimeout : Except ConfigError Nat
  /-- How many seconds the parent waits for its update. -/
  initialDelay : Except ConfigError Nat
  /-- The simplification tolerance of locations. -/
  distanceTolerance : Except ConfigError Float
  /-- Whether the stream is received from the start. -/
  startImmediately : Except ConfigError Bool
  /-- The title of the parent record. -/
  parentTitle : Except ConfigError (Option String)

namespace Reading

/-- What properties are read as. -/
def ofProperties (ps : Properties) : Reading where
  title := read? ps PropertyName.title PropertyValue.readText
  monitoredAddress := read? ps PropertyName.monitoredAddress PropertyValue.readText
  byteCount := readOr ps PropertyName.byteCount PropertyValue.readPositive standardByteCount
  elapsedTime := readOr ps PropertyName.elapsedTime PropertyValue.readPositive standardElapsedTime
  idleTimeout := readOr ps PropertyName.idleTimeout PropertyValue.readPositive standardIdleTimeout
  initialDelay := readOr ps PropertyName.initialDelay PropertyValue.readNat 0
  distanceTolerance := readOr ps PropertyName.distanceTolerance PropertyValue.readDistance 0.0001
  startImmediately := readOr ps PropertyName.startImmediately PropertyValue.readBool false
  parentTitle := read? ps PropertyName.parentTitle PropertyValue.readText

/-- What the properties of a configuration are to be read as. -/
def ofConfig (c : StreamConfig) : Reading where
  title := .ok (some c.title)
  monitoredAddress := .ok (some c.monitoredAddress)
  byteCount := .ok c.byteCount
  elapsedTime := .ok c.elapsedTime
  idleTimeout := .ok c.idleTimeout
  initialDelay := .ok c.initialDelay
  distanceTolerance := .ok c.distanceTolerance
  startImmediately := .ok c.startImmediately
  parentTitle := .ok c.parentTitle

/-- The configuration that is read, or the first fault. -/
def config (r : Reading) : Except ConfigError StreamConfig := do
  let title ← r.title
  let title ← need PropertyName.title (title.filter fun t => (Text.trim t) ≠ "")
  let monitoredAddress ← need PropertyName.monitoredAddress (← r.monitoredAddress)
  let address ← readStreamAddress monitoredAddress
  let byteCount ← r.byteCount
  let elapsedTime ← r.elapsedTime
  let idleTimeout ← r.idleTimeout
  let initialDelay ← r.initialDelay
  let distanceTolerance ← r.distanceTolerance
  let startImmediately ← r.startImmediately
  let parentTitle ← r.parentTitle
  return { title, monitoredAddress, address, byteCount, elapsedTime, idleTimeout, initialDelay,
           startImmediately, distanceTolerance, parentTitle }

end Reading

/-- A configuration is made of what its properties are read as. -/
theorem ofProperties_eq (ps : Properties) : ofProperties ps = (Reading.ofProperties ps).config := rfl

/-- Whether a configuration has a title that is not blank, and the address that it names. -/
structure IsSound (c : StreamConfig) : Prop where
  /-- The title is not blank. -/
  trim_title_ne : Text.trim c.title ≠ ""
  /-- The address is the one that is named. -/
  readStreamAddress_eq : readStreamAddress c.monitoredAddress = .ok c.address

theorem Reading.config_eq_ok_iff {r : Reading} {c : StreamConfig} :
    r.config = .ok c ↔ r = ofConfig c ∧ c.IsSound := by
  constructor
  · intro h
    unfold config at h
    obtain ⟨title?, htitle, h⟩ := exists_of_bind_eq_ok h
    obtain ⟨title, hneed, h⟩ := exists_of_bind_eq_ok h
    obtain ⟨named?, hnamed, h⟩ := exists_of_bind_eq_ok h
    obtain ⟨monitoredAddress, hneed', h⟩ := exists_of_bind_eq_ok h
    obtain ⟨address, haddress, h⟩ := exists_of_bind_eq_ok h
    obtain ⟨byteCount, hbyteCount, h⟩ := exists_of_bind_eq_ok h
    obtain ⟨elapsedTime, helapsedTime, h⟩ := exists_of_bind_eq_ok h
    obtain ⟨idleTimeout, hidleTimeout, h⟩ := exists_of_bind_eq_ok h
    obtain ⟨initialDelay, hinitialDelay, h⟩ := exists_of_bind_eq_ok h
    obtain ⟨distanceTolerance, hdistanceTolerance, h⟩ := exists_of_bind_eq_ok h
    obtain ⟨startImmediately, hstartImmediately, h⟩ := exists_of_bind_eq_ok h
    obtain ⟨parentTitle, hparentTitle, h⟩ := exists_of_bind_eq_ok h
    cases h
    obtain ⟨rfl, hblank⟩ := Option.filter_eq_some_iff.1 (eq_some_of_need hneed)
    obtain rfl := eq_some_of_need hneed'
    refine ⟨?_, of_decide_eq_true hblank, haddress⟩
    cases r
    simp only [ofConfig, mk.injEq]
    exact ⟨htitle, hnamed, hbyteCount, helapsedTime, hidleTimeout, hinitialDelay,
      hdistanceTolerance, hstartImmediately, hparentTitle⟩
  · rintro ⟨rfl, hsound⟩
    have htitle : (some c.title).filter (fun t => Text.trim t ≠ "") = some c.title :=
      Option.filter_some_pos (decide_eq_true hsound.trim_title_ne)
    have haddress := hsound.readStreamAddress_eq
    unfold config ofConfig
    simp only [bind, Except.bind, htitle, need, Option.elim_some, haddress]
    rfl

/-- Properties describe a configuration if they are read as it. -/
theorem ofProperties_eq_ok_iff {ps : Properties} {c : StreamConfig} :
    ofProperties ps = .ok c ↔ Reading.ofProperties ps = Reading.ofConfig c ∧ c.IsSound := by
  rw [ofProperties_eq, Reading.config_eq_ok_iff]

/-- Properties that are read alike are read alike under any others. -/
theorem Reading.ofProperties_overlay_congr {ps qs : Properties}
    (h : ofProperties ps = ofProperties qs) (changes : Properties) :
    ofProperties (ps.overlay changes) = ofProperties (qs.overlay changes) := by
  simp only [ofProperties, mk.injEq] at h ⊢
  obtain ⟨htitle, hmonitoredAddress, hbyteCount, helapsedTime, hidleTimeout, hinitialDelay,
    hdistanceTolerance, hstartImmediately, hparentTitle⟩ := h
  simp only [read?_overlay, readOr_overlay, htitle, hmonitoredAddress, hbyteCount, helapsedTime,
    hidleTimeout, hinitialDelay, hdistanceTolerance, hstartImmediately, hparentTitle, and_self]

/-! ## The properties of a configuration -/

/-- The properties that a configuration gives, by name. -/
def members (c : StreamConfig) : List (String × PropertyValue) :=
  [(PropertyName.title, .text c.title),
    (PropertyName.monitoredAddress, .text c.monitoredAddress),
    (PropertyName.byteCount, .integer c.byteCount),
    (PropertyName.elapsedTime, .integer c.elapsedTime),
    (PropertyName.idleTimeout, .integer c.idleTimeout),
    (PropertyName.initialDelay, .integer c.initialDelay),
    (PropertyName.startImmediately, .bool c.startImmediately),
    (PropertyName.distanceTolerance, .float c.distanceTolerance)] ++
    c.parentTitle.toList.map fun t => (PropertyName.parentTitle, .text t)

theorem toProperties_eq (c : StreamConfig) : c.toProperties = .ofList c.members := rfl

theorem nodup_members (c : StreamConfig) : (c.members.map Prod.fst).Nodup := by
  cases h : c.parentTitle <;> simp [members, h] <;> decide

theorem getElem?_toProperties_of_mem {c : StreamConfig} {name : String} {v : PropertyValue}
    (h : (name, v) ∈ c.members) : c.toProperties[name]? = some v := by
  rw [toProperties_eq]
  refine Std.ExtTreeMap.getElem?_ofList_of_mem Std.ReflCmp.compare_self ?_ h
  have hnodup := List.pairwise_map.1 (nodup_members c)
  exact hnodup.imp fun hne heq => hne (Std.LawfulEqCmp.eq_of_compare heq)

theorem mem_members_of_getElem? {c : StreamConfig} {name : String} {v : PropertyValue}
    (h : c.toProperties[name]? = some v) : (name, v) ∈ c.members := by
  by_cases hname : name ∈ c.members.map Prod.fst
  · obtain ⟨⟨_, w⟩, hmem, rfl⟩ := List.mem_map.1 hname
    have hw := getElem?_toProperties_of_mem hmem
    rw [h] at hw
    cases hw
    exact hmem
  · rw [toProperties_eq, Std.ExtTreeMap.getElem?_ofList_of_contains_eq_false (by simpa using hname)]
      at h
    cases h

theorem getElem?_toProperties_parentTitle (c : StreamConfig) :
    c.toProperties[PropertyName.parentTitle]? = c.parentTitle.map .text := by
  cases hparent : c.parentTitle with
  | some t => exact getElem?_toProperties_of_mem (by simp [members, hparent])
  | none =>
    rw [toProperties_eq, Std.ExtTreeMap.getElem?_ofList_of_contains_eq_false]
    · rfl
    · rw [members, hparent]
      rfl

/-- A configuration that properties describe gives properties that are read as it. -/
theorem Reading.ofProperties_toProperties {ps : Properties} {c : StreamConfig}
    (h : ofProperties ps = ofConfig c) : ofProperties c.toProperties = ofConfig c := by
  have hwritten {name : String} {v : PropertyValue} (hmem : (name, v) ∈ c.members) :
      c.toProperties[name]? = some v := getElem?_toProperties_of_mem hmem
  simp only [ofProperties, ofConfig, mk.injEq] at h ⊢
  obtain ⟨htitle, hmonitoredAddress, hbyteCount, helapsedTime, hidleTimeout, hinitialDelay,
    hdistanceTolerance, hstartImmediately, hparentTitle⟩ := h
  refine ⟨?_, ?_, ?_, ?_, ?_, ?_, ?_, ?_, ?_⟩
  · exact read?_restored PropertyValue.restores_text htitle (hwritten (by simp [members]))
  · exact read?_restored PropertyValue.restores_text hmonitoredAddress
      (hwritten (by simp [members]))
  · exact readOr_restored PropertyValue.restores_positive
      (PropertyValue.readPositive_integer (by decide)) hbyteCount (hwritten (by simp [members]))
  · exact readOr_restored PropertyValue.restores_positive
      (PropertyValue.readPositive_integer (by decide)) helapsedTime (hwritten (by simp [members]))
  · exact readOr_restored PropertyValue.restores_positive
      (PropertyValue.readPositive_integer (by decide)) hidleTimeout (hwritten (by simp [members]))
  · exact readOr_restored PropertyValue.restores_nat (PropertyValue.readNat_integer 0) hinitialDelay
      (hwritten (by simp [members]))
  · exact readOr_restored PropertyValue.restores_distance
      (PropertyValue.readDistance_float (by decide +kernel)) hdistanceTolerance
      (hwritten (by simp [members]))
  · exact readOr_restored PropertyValue.restores_bool rfl hstartImmediately
      (hwritten (by simp [members]))
  · exact read?_restored PropertyValue.restores_text hparentTitle
      (getElem?_toProperties_parentTitle c)

/-! ## Laws of changes -/

/-- Properties that describe a configuration may be replaced by those that it gives, under any
others. -/
theorem ofProperties_overlay_of_eq_ok {ps : Properties} {c : StreamConfig}
    (h : ofProperties ps = .ok c) (changes : Properties) :
    ofProperties (c.toProperties.overlay changes) = ofProperties (ps.overlay changes) := by
  have hread := (ofProperties_eq_ok_iff.1 h).1
  rw [ofProperties_eq, ofProperties_eq, Reading.ofProperties_overlay_congr
    ((Reading.ofProperties_toProperties hread).trans hread.symm)]

theorem ofProperties_toProperties {ps : Properties} {c : StreamConfig}
    (h : ofProperties ps = .ok c) : ofProperties c.toProperties = .ok c := by
  obtain ⟨hread, hsound⟩ := ofProperties_eq_ok_iff.1 h
  exact ofProperties_eq_ok_iff.2 ⟨Reading.ofProperties_toProperties hread, hsound⟩

/-- The numbers of a configuration have 64 bits if those of its properties do. -/
theorem are64Bit_toProperties {ps : Properties} (hps : ps.Are64Bit) {c : StreamConfig}
    (h : ofProperties ps = .ok c) : c.toProperties.Are64Bit := by
  have hread := (ofProperties_eq_ok_iff.1 h).1
  have hnat {name : String} {read : PropertyValue → Except Unexpected Nat} {standard n : Nat}
      (hread : readOr ps name read standard = .ok n)
      (hnat : ∀ v m, read v = .ok m → v.readNat = .ok m)
      (hstandard : (standard : Int) ≤ PropertyValue.greatestInteger) :
      (PropertyValue.integer n).Is64Bit := by
    have hleast : -PropertyValue.greatestInteger - 1 ≤ 0 := by decide
    refine ⟨Int.le_trans hleast (Int.natCast_nonneg n), ?_⟩
    obtain ⟨value, hvalue, rfl⟩ := readOr_eq_ok_iff.1 hread
    cases value with
    | none => exact hstandard
    | some m =>
      obtain ⟨v, hv, hm⟩ := read?_eq_ok_some_iff.1 hvalue
      exact PropertyValue.readNat_le (hps name v hv) (hnat v m hm)
  have hpositive (v : PropertyValue) (m : Nat) (h : v.readPositive = .ok m) : v.readNat = .ok m :=
    (PropertyValue.readPositive_eq_ok h).1
  simp only [Reading.ofProperties, Reading.ofConfig, Reading.mk.injEq] at hread
  obtain ⟨-, -, hbyteCount, helapsedTime, hidleTimeout, hinitialDelay, -, -, -⟩ := hread
  intro name v hv
  have hmem := mem_members_of_getElem? hv
  simp only [members, List.mem_append, List.mem_cons, List.not_mem_nil, or_false, Prod.mk.injEq,
    List.mem_map] at hmem
  rcases hmem with (⟨-, rfl⟩ | ⟨-, rfl⟩ | ⟨-, rfl⟩ | ⟨-, rfl⟩ | ⟨-, rfl⟩ | ⟨-, rfl⟩ | ⟨-, rfl⟩ |
    ⟨-, rfl⟩) | ⟨_, -, -, rfl⟩
  · trivial
  · trivial
  · exact hnat hbyteCount hpositive (by decide)
  · exact hnat helapsedTime hpositive (by decide)
  · exact hnat hidleTimeout hpositive (by decide)
  · exact hnat hinitialDelay (fun _ _ h => h) (by decide)
  · trivial
  · trivial
  · trivial

/-- The configurations that properties describe, and those that changes make of them. Whole numbers
among properties have 64 bits. -/
inductive IsObtained : StreamConfig → Prop where
  /-- The configuration that properties describe. -/
  | ofProperties {ps : Properties} {c : StreamConfig} (are64Bit : ps.Are64Bit)
      (described : ofProperties ps = .ok c) : IsObtained c
  /-- A configuration with changes. -/
  | merged {c c' : StreamConfig} {changes : Properties} (obtained : IsObtained c)
      (are64Bit : changes.Are64Bit) (changed : c.merged changes = .ok c') : IsObtained c'

/-- Properties describe each configuration that is obtained. -/
theorem IsObtained.exists_properties {c : StreamConfig} (h : c.IsObtained) :
    ∃ ps : Properties, ps.Are64Bit ∧ StreamConfig.ofProperties ps = .ok c := by
  induction h with
  | ofProperties are64Bit described => exact ⟨_, are64Bit, described⟩
  | merged _ are64Bit changed ih =>
    obtain ⟨ps, hps, hdescribed⟩ := ih
    exact ⟨_, (are64Bit_toProperties hps hdescribed).overlay are64Bit, changed⟩

/-- Whether a configuration has the fields of another one whose properties are not among changes. -/
structure KeepsUnnamed (changes : Properties) (before after : StreamConfig) : Prop where
  /-- The title. -/
  title : PropertyName.title ∉ changes → after.title = before.title
  /-- The address, as it was given and as that of a socket. -/
  monitoredAddress : PropertyName.monitoredAddress ∉ changes →
    after.monitoredAddress = before.monitoredAddress ∧ after.address = before.address
  /-- How many bytes close a chunk. -/
  byteCount : PropertyName.byteCount ∉ changes → after.byteCount = before.byteCount
  /-- After how many milliseconds a chunk is closed. -/
  elapsedTime : PropertyName.elapsedTime ∉ changes → after.elapsedTime = before.elapsedTime
  /-- After how many milliseconds without data a chunk is closed. -/
  idleTimeout : PropertyName.idleTimeout ∉ changes → after.idleTimeout = before.idleTimeout
  /-- How many seconds the parent waits for its update. -/
  initialDelay : PropertyName.initialDelay ∉ changes → after.initialDelay = before.initialDelay
  /-- Whether the stream is received from the start. -/
  startImmediately : PropertyName.startImmediately ∉ changes →
    after.startImmediately = before.startImmediately
  /-- The simplification tolerance of locations. -/
  distanceTolerance : PropertyName.distanceTolerance ∉ changes →
    after.distanceTolerance = before.distanceTolerance
  /-- The title of the parent record. -/
  parentTitle : PropertyName.parentTitle ∉ changes → after.parentTitle = before.parentTitle

/-- Properties that are not named are read as before. -/
theorem keepsUnnamed_of_merged {changes : Properties} {before after : StreamConfig}
    (hbefore : ofProperties before.toProperties = .ok before)
    (hafter : before.merged changes = .ok after) : KeepsUnnamed changes before after := by
  obtain ⟨hread, hsound⟩ := ofProperties_eq_ok_iff.1 hbefore
  obtain ⟨hread', hsound'⟩ := ofProperties_eq_ok_iff.1 hafter
  simp only [Reading.ofProperties, Reading.ofConfig, Reading.mk.injEq, read?_overlay,
    readOr_overlay] at hread hread'
  obtain ⟨htitle, hmonitoredAddress, hbyteCount, helapsedTime, hidleTimeout, hinitialDelay,
    hdistanceTolerance, hstartImmediately, hparentTitle⟩ := hread
  obtain ⟨htitle', hmonitoredAddress', hbyteCount', helapsedTime', hidleTimeout', hinitialDelay',
    hdistanceTolerance', hstartImmediately', hparentTitle'⟩ := hread'
  have hsame {α : Type} {name : String} {read read' : Except ConfigError α} {a a' : α}
      (h : read = .ok a) (h' : (if name ∈ changes then read' else read) = .ok a')
      (hname : name ∉ changes) : a' = a := by
    rw [if_neg hname, h] at h'
    exact (Except.ok.inj h').symm
  refine ⟨fun h => Option.some.inj (hsame htitle htitle' h), fun h => ?_, hsame hbyteCount hbyteCount',
    hsame helapsedTime helapsedTime', hsame hidleTimeout hidleTimeout',
    hsame hinitialDelay hinitialDelay', hsame hstartImmediately hstartImmediately',
    hsame hdistanceTolerance hdistanceTolerance', hsame hparentTitle hparentTitle'⟩
  have hnamed := Option.some.inj (hsame hmonitoredAddress hmonitoredAddress' h)
  refine ⟨hnamed, ?_⟩
  have haddress := hsound'.readStreamAddress_eq
  rw [hnamed, hsound.readStreamAddress_eq] at haddress
  exact (Except.ok.inj haddress).symm

theorem overlay_assoc (a b c : Properties) : (a.overlay b).overlay c = a.overlay (b.overlay c) := by
  refine Std.ExtTreeMap.ext_getElem? fun name => ?_
  simp only [Properties.getElem?_overlay, Option.or_assoc]

theorem overlay_empty (a : Properties) : a.overlay ∅ = a := by
  refine Std.ExtTreeMap.ext_getElem? fun name => ?_
  rw [Properties.getElem?_overlay, Std.ExtTreeMap.getElem?_empty, Option.none_or]

/-- The properties of a configuration describe it, with whole numbers of 64 bits; changes by nothing
leave it; changes that succeed leave each field whose property they do not name; and after them
other changes do what both at once do to the first configuration, whether they succeed or not. -/
theorem merge_laws {c : StreamConfig} (h : c.IsObtained) :
    ofProperties c.toProperties = .ok c ∧ c.toProperties.Are64Bit ∧ c.merged ∅ = .ok c ∧
      ∀ (a : Properties) (c₁ : StreamConfig), c.merged a = .ok c₁ → KeepsUnnamed a c c₁ ∧
        ∀ b : Properties, c₁.merged b = c.merged (a.overlay b) := by
  obtain ⟨ps, hps, hdescribed⟩ := h.exists_properties
  have hself := ofProperties_toProperties hdescribed
  refine ⟨hself, are64Bit_toProperties hps hdescribed, ?_, fun a c₁ ha =>
    ⟨keepsUnnamed_of_merged hself ha, fun b => ?_⟩⟩
  · rw [merged, overlay_empty, hself]
  · rw [merged, ofProperties_overlay_of_eq_ok ha b, overlay_assoc, merged]

/-- The properties of a stream: a number is given as a text, and a tolerance as a whole number. -/
def harbour : Properties :=
  ((((∅ : Properties).insert PropertyName.title (.text "Harbour")).insert
    PropertyName.monitoredAddress (.text "udp://127.0.0.1:50000/")).insert
    PropertyName.byteCount (.text " +188 ")).insert PropertyName.distanceTolerance (.integer 0)

theorem are64Bit_harbour : harbour.Are64Bit := by
  intro name v hv
  simp only [harbour, Std.ExtTreeMap.getElem?_insert] at hv
  repeat' split at hv
  · cases hv
    exact ⟨by decide, by decide⟩
  · cases hv
    trivial
  · cases hv
    trivial
  · cases hv
    trivial
  · simp at hv

/-- A change of the number of bytes that close a chunk. -/
def chunksOf (bytes : Int) : Properties :=
  (∅ : Properties).insert PropertyName.byteCount (.integer bytes)

/-- The stream gets larger chunks, and then is to get chunks of no bytes. -/
theorem merge_laws_of_harbour :
    ∃ c c₁ : StreamConfig, ofProperties harbour = .ok c ∧ ofProperties c.toProperties = .ok c ∧
      c.merged (chunksOf 1000) = .ok c₁ ∧ c₁.byteCount = 1000 ∧ c₁.title = "Harbour" ∧
      c₁.merged (chunksOf 0) = c.merged ((chunksOf 1000).overlay (chunksOf 0)) ∧
      c₁.merged (chunksOf 0) = .error (.invalid PropertyName.byteCount .zero) := by
  obtain ⟨c, hc⟩ : ∃ c, ofProperties harbour = .ok c := ⟨_, rfl⟩
  obtain ⟨hself, -, -, hlaws⟩ := merge_laws (.ofProperties are64Bit_harbour hc)
  obtain ⟨c₁, hc₁⟩ : ∃ c₁, c.merged (chunksOf 1000) = .ok c₁ := by
    cases hc
    exact ⟨_, rfl⟩
  refine ⟨c, c₁, hc, hself, hc₁, ?_, ?_, (hlaws _ _ hc₁).2 _, ?_⟩ <;> cases hc <;> cases hc₁
  · rfl
  · rfl
  · rfl

end StreamConfig

end StreamCatalog
