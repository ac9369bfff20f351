import StreamCatalog.Proofs.Pes.Ledger

/-!
# Where units come from

Each unit that an assembler gives is that of a trail of packets without a gap, no packet is
used for two units, and every unit that was started is given, dropped at a gap, left for want
of content, or still open (`Assembler.units_of_trails`). A ledger is kept beside the assembler;
one call changes it by one of a few moves.
-/

namespace StreamCatalog.Pes

open Transport (Packet)

/-! ## A ledger beside an assembler -/

/-- Whether a ledger says what has become of the units of an assembler that has given `units`. -/
structure Tracks (calls : List Call) (free seen : Nat) (opened : List Nat) (a : Assembler)
    (units : List Unit) (l : Ledger) : Prop where
  /-- The trails are among the calls. -/
  accounts : Accounts calls free opened l.trails
  /-- What is collected is that of the open trails. -/
  keeps : Keeps calls seen a.partials l.going
  /-- The units are those of trails. -/
  units_eq : units = l.given.map Trail.unit
  /-- Dropped units are counted. -/
  discarded_eq : a.discarded = l.dropped.length
  /-- Units are dropped at a gap. -/
  isBroken : ∀ t ∈ l.dropped, t.IsBroken calls
  /-- Units are left when they are interrupted and have no content. -/
  isIdle : ∀ t ∈ l.idle, t.data = [] ∧ t.IsInterrupted calls

namespace Assembler

/-- Do what is asked for. -/
def call (a : Assembler) : Call → List Unit × Assembler
  | .push p => a.push p
  | .flush => a.flush

/-- Do what is asked for, one call after the other. -/
def callAll (a : Assembler) : List Call → List Unit × Assembler
  | [] => ([], a)
  | c :: calls =>
    let (units, a) := a.call c
    let (later, a) := callAll a calls
    (units ++ later, a)

theorem callAll_cons (a : Assembler) (c : Call) (calls : List Call) :
    a.callAll (c :: calls) =
      ((a.call c).1 ++ ((a.call c).2.callAll calls).1, ((a.call c).2.callAll calls).2) := rfl

end Assembler

namespace Tracks

variable {calls : List Call} {free seen : Nat} {opened : List Nat} {a : Assembler}
  {units : List Unit} {l : Ledger} {t : Trail} {pid : Nat}

theorem mem_trails (ht : l.going[pid]? = some t) : t ∈ l.trails :=
  (Ledger.trails_perm_cons ht).mem_iff.2 List.mem_cons_self

theorem last_lt (h : Tracks calls free seen opened a units l) (ht : l.going[pid]? = some t) :
    t.last.place < free :=
  h.accounts.place_lt t (mem_trails ht) _ (List.mem_map_of_mem (List.getLast_mem _))

/-- The next call interrupts no open unit. -/
theorem passed (h : Tracks calls free seen opened a units l)
    (hpassed : ∀ (pid : Nat) t c, l.going[pid]? = some t → calls[seen]? = some c →
      ¬Interrupts pid c) :
    Tracks calls free (seen + 1) opened a units l :=
  { h with keeps := h.keeps.passed hpassed }

/-- The next call is not used for a unit. -/
theorem succ (h : Tracks calls free seen opened a units l) :
    Tracks calls (free + 1) seen opened a units l :=
  { h with accounts := h.accounts.succ }

/-- An open unit is given. -/
theorem given (h : Tracks calls free seen opened a units l) (ht : l.going[t.pid]? = some t) :
    Tracks calls free seen opened (a.cleared t.pid) (units ++ [t.unit]) (l.giving t) where
  accounts := h.accounts.perm (Ledger.trails_giving ht)
  keeps := h.keeps.erase t.pid
  units_eq := by
    rw [h.units_eq]
    simp [Ledger.giving]
  discarded_eq := h.discarded_eq
  isBroken := h.isBroken
  isIdle := h.isIdle

/-- An open unit without content is interrupted. -/
theorem left (h : Tracks calls free seen opened a units l) (ht : l.going[t.pid]? = some t)
    (hempty : t.data = []) (hinterrupted : t.IsInterrupted calls) :
    Tracks calls free seen opened (a.cleared t.pid) units (l.leaving t) where
  accounts := h.accounts.perm (Ledger.trails_leaving ht)
  keeps := h.keeps.erase t.pid
  units_eq := h.units_eq
  discarded_eq := h.discarded_eq
  isBroken := h.isBroken
  isIdle t' ht' := by
    rcases List.mem_append.1 ht' with ht' | ht'
    · exact h.isIdle t' ht'
    · obtain rfl := List.mem_singleton.1 ht'
      exact ⟨hempty, hinterrupted⟩

/-- An open unit is dropped at a gap. -/
theorem dropped (h : Tracks calls free seen opened a units l) (ht : l.going[t.pid]? = some t)
    (hbroken : t.IsBroken calls) :
    Tracks calls free seen opened { a.cleared t.pid with discarded := a.discarded + 1 } units
      (l.dropping t) where
  accounts := h.accounts.perm (Ledger.trails_dropping ht)
  keeps := h.keeps.erase t.pid
  units_eq := h.units_eq
  discarded_eq := by simp [Ledger.dropping, h.discarded_eq]
  isBroken t' ht' := by
    rcases List.mem_append.1 ht' with ht' | ht'
    · exact h.isBroken t' ht'
    · obtain rfl := List.mem_singleton.1 ht'
      exact hbroken
  isIdle := h.isIdle

/-- A unit starts where none is open. -/
theorem begun (h : Tracks calls free seen opened a units l) (start : Arrival) {header : Partial}
    (hcall : calls[free]? = some (.push start.packet)) (hplace : start.place = free)
    (hseen : seen ≤ free + 1) (hnone : l.going[start.packet.pid]? = none)
    (starts : Starts start.packet)
    (header_eq : startUnit start.packet.payload start.packet.continuity = some header) :
    Tracks calls (free + 1) seen (opened ++ [free]) (a.collecting start.packet.pid header) units
      (l.opening (Trail.begun start header starts header_eq)) where
  accounts := by
    have hwithout : l.without (Trail.begun start header starts header_eq).pid = l :=
      Ledger.without_eq_self hnone
    refine Accounts.perm ?_ (Ledger.trails_opening l (Trail.begun start header starts header_eq))
    rw [hwithout]
    exact h.accounts.begun hcall hplace
  keeps := by
    have hinsert := h.keeps.insert (Trail.begun start header starts header_eq)
      fun k c hafter hbefore _ => by
        have hlater : free < k := hplace ▸ hafter
        omega
    rwa [Trail.collected_begun] at hinsert
  units_eq := h.units_eq
  discarded_eq := h.discarded_eq
  isBroken := h.isBroken
  isIdle := h.isIdle

/-- A packet goes on with an open unit. -/
theorem extended (h : Tracks calls free free opened a units l) {p : Packet}
    (ht : l.going[t.pid]? = some t) (hcall : calls[free]? = some (.push p))
    (continues : Continues p) (pid_eq : p.pid = t.pid)
    (follows : Follows t.last.packet.continuity p) :
    ∃ t' : Trail, t'.pid = t.pid ∧ t'.collected = t.collected.extended p ∧
      Tracks calls (free + 1) free opened (a.collecting t.pid (t.collected.extended p)) units
        (l.opening t') := by
  have hafter : ∀ place ∈ t.places, place < (⟨free, p⟩ : Arrival).place :=
    h.accounts.place_lt t (mem_trails ht)
  let t' := t.extended ⟨free, p⟩ continues pid_eq follows hafter
  have hcollected : t'.collected = t.collected.extended p := Trail.collected_extended
  have hundisturbed := h.keeps.undisturbed t.pid t ht
  refine ⟨t', rfl, hcollected, ?_, ?_, h.units_eq, h.discarded_eq, h.isBroken, h.isIdle⟩
  · refine Accounts.perm ?_ (Ledger.trails_opening l t')
    exact (h.accounts.perm (Ledger.trails_perm_cons ht).symm).extended hcall rfl hundisturbed
  · rw [← hcollected]
    exact h.keeps.insert t' hundisturbed

/-! ## One call -/

/-- What is open is given, or left for want of content. -/
theorem ended (h : Tracks calls free seen opened a units l) {c : Call} (hc : calls[free]? = some c)
    (hinterrupts : Interrupts pid c) :
    ∃ l' : Ledger, l'.going = l.going.erase pid ∧
      Tracks calls free seen opened (a.cleared pid) (units ++ a.ended pid) l' := by
  rw [Assembler.ended]
  cases hu : a.partials[pid]? with
  | none =>
    have hnone : l.going[pid]? = none := by
      rwa [h.keeps.collected, Option.map_eq_none_iff] at hu
    refine ⟨l, (erase_of_getElem?_eq_none hnone).symm, ?_⟩
    rw [Assembler.cleared, erase_of_getElem?_eq_none hu]
    simpa using h
  | some u =>
    obtain ⟨t, ht, rfl, rfl⟩ := h.keeps.exists_trail hu
    rw [Option.bind_some, Assembler.closing]
    split
    case isTrue hempty =>
      have hinterrupted : t.IsInterrupted calls := ⟨free, c, h.last_lt ht, hc, hinterrupts⟩
      refine ⟨l.leaving t, rfl, ?_⟩
      simpa using h.left ht (List.isEmpty_iff.1 hempty) hinterrupted
    case isFalse => exact ⟨l.giving t, rfl, h.given ht⟩

/-- A packet that starts nothing interrupts nothing. -/
theorem passed_of_not_starts (h : Tracks calls free seen opened a units l) {p : Packet}
    (hc : calls[seen]? = some (.push p)) (hp : ¬Starts p) :
    Tracks calls free (seen + 1) opened a units l := by
  refine h.passed fun pid t c _ hcall hinterrupts => ?_
  obtain rfl : Call.push p = c := Option.some.inj (hc.symm.trans hcall)
  cases hinterrupts with
  | start p _ hstarts => exact hp hstarts

/-- A packet interrupts nothing where nothing is open. -/
theorem passed_of_getElem?_eq_none (h : Tracks calls free seen opened a units l) {p : Packet}
    (hc : calls[seen]? = some (.push p)) (hnone : l.going[p.pid]? = none) :
    Tracks calls free (seen + 1) opened a units l := by
  refine h.passed fun pid t c ht hcall hinterrupts => ?_
  obtain rfl : Call.push p = c := Option.some.inj (hc.symm.trans hcall)
  cases hinterrupts with
  | start p hpid _ =>
    rw [← hpid, hnone] at ht
    cases ht

/-- A packet that starts something ends what is open on its identifier. -/
theorem ended_at (h : Tracks calls free free opened a units l) {p : Packet}
    (hc : calls[free]? = some (.push p)) (hp : Starts p) :
    ∃ l' : Ledger, l'.going[p.pid]? = none ∧ Tracks calls free (free + 1) opened (a.cleared p.pid)
      (units ++ a.ended p.pid) l' := by
  obtain ⟨l', hgoing, h'⟩ := h.ended hc (.start p rfl hp)
  have hnone : l'.going[p.pid]? = none := by
    rw [hgoing, Std.ExtTreeMap.getElem?_erase_self]
  exact ⟨l', hnone, h'.passed_of_getElem?_eq_none hc hnone⟩

/-- The same packet may start a unit. -/
theorem opened_at (h : Tracks calls free free opened a units l) {p : Packet} {u : Partial}
    (hc : calls[free]? = some (.push p)) (hp : Starts p)
    (hu : startUnit p.payload p.continuity = some u) :
    ∃ (l' : Ledger) (t : Trail), l'.going[t.pid]? = some t ∧ t.pid = p.pid ∧ t.collected = u ∧
      Tracks calls (free + 1) (free + 1) (opened ++ [free]) ((a.cleared p.pid).collecting p.pid u)
        (units ++ a.ended p.pid) l' := by
  obtain ⟨l', hnone, h'⟩ := h.ended_at hc hp
  let t := Trail.begun ⟨free, p⟩ u hp hu
  exact ⟨l'.opening t, t, Std.ExtTreeMap.getElem?_insert_self, rfl, Trail.collected_begun hp hu,
    h'.begun ⟨free, p⟩ hc rfl (Nat.le_refl _) hnone hp hu⟩

/-- What a packet does to the ledger. -/
theorem push (h : Tracks calls free free (openings calls free) a units l) {p : Packet}
    (hc : calls[free]? = some (.push p)) :
    ∃ l' : Ledger, Tracks calls (free + 1) (free + 1) (openings calls (free + 1)) (a.push p).2
      (units ++ (a.push p).1) l' := by
  have hpushed := a.pushed p
  generalize a.push p = result at hpushed
  cases hpushed with
  | passed hp =>
    rw [openings_of_not_opens hc fun hopens => hp hopens.1, List.append_nil]
    exact ⟨l, (h.passed_of_not_starts hc hp).succ⟩
  | replaced hp hheader =>
    rw [openings_of_not_opens hc fun ⟨_, u, hu⟩ => Option.some_ne_none u (hu.symm.trans hheader)]
    obtain ⟨l', -, h'⟩ := h.ended_at hc hp
    exact ⟨l', h'.succ⟩
  | opened u hp hu =>
    rw [openings_of_opens hc hp hu]
    obtain ⟨l', -, -, -, -, h'⟩ := h.opened_at hc hp hu
    exact ⟨l', h'⟩
  | whole u hp hu =>
    rw [openings_of_opens hc hp hu]
    obtain ⟨l', t, ht, hpid, rfl, h'⟩ := h.opened_at hc hp hu
    have hunit : t.collected.toUnit p.pid = t.unit := by rw [Trail.unit, hpid]
    have hcleared : ((a.cleared p.pid).collecting p.pid t.collected).cleared t.pid =
        a.cleared p.pid := by
      simp only [hpid, Assembler.cleared, Assembler.collecting, erase_insert_same,
        erase_of_getElem?_eq_none Std.ExtTreeMap.getElem?_erase_self]
    rw [hunit, ← hcleared, ← List.append_assoc]
    exact ⟨l'.giving t, h'.given ht⟩
  | dropped u hp hu hother hgap =>
    rw [openings_of_not_opens hc fun hopens => hopens.1.not_continues hp, List.append_nil]
    obtain ⟨t, ht, hpid, rfl⟩ := h.keeps.exists_trail hu
    have hbroken : t.IsBroken calls := ⟨free, p, h.last_lt ht, hc, hp, hpid.symm, hother, hgap⟩
    have hdropped := (h.dropped ht hbroken).passed_of_not_starts hc fun hs => hs.not_continues hp
    exact ⟨l.dropping t, hpid ▸ hdropped.succ⟩
  | extended u hp hu hfollows =>
    rw [openings_of_not_opens hc fun hopens => hopens.1.not_continues hp, List.append_nil]
    obtain ⟨t, ht, hpid, rfl⟩ := h.keeps.exists_trail hu
    obtain ⟨t', -, -, h'⟩ := h.extended ht hc hp hpid.symm hfollows
    exact ⟨_, hpid ▸ h'.passed_of_not_starts hc fun hs => hs.not_continues hp⟩
  | completed u hp hu hfollows =>
    rw [openings_of_not_opens hc fun hopens => hopens.1.not_continues hp]
    obtain ⟨t, ht, hpid, rfl⟩ := h.keeps.exists_trail hu
    obtain ⟨t', hpid', hcollected, h'⟩ := h.extended ht hc hp hpid.symm hfollows
    have hunit : (t.collected.extended p).toUnit p.pid = t'.unit := by
      rw [Trail.unit, hpid', hpid, hcollected]
    have hcleared : (a.collecting t.pid (t.collected.extended p)).cleared t'.pid =
        a.cleared p.pid := by
      rw [hpid', hpid, Assembler.cleared, Assembler.collecting, erase_insert_same]
      rfl
    have hpassed := h'.passed_of_not_starts hc fun hs => hs.not_continues hp
    rw [hunit, ← hcleared]
    exact ⟨(l.opening t').giving t', hpassed.given Std.ExtTreeMap.getElem?_insert_self⟩

theorem filterMap_unit (ts : List Trail) :
    ts.filterMap (fun t => if t.data.isEmpty then none else some t.unit) =
      (ts.filter fun t => !t.data.isEmpty).map Trail.unit := by
  induction ts with
  | nil => rfl
  | cons t ts ih =>
    rw [List.filterMap_cons, List.filter_cons]
    cases t.data.isEmpty with
    | false => exact congrArg (t.unit :: ·) ih
    | true => exact ih

/-- The end gives the open units that have content. -/
theorem units_flush (h : Tracks calls free seen opened a units l) :
    a.flush.1 = ((l.going.toList.map (·.2)).filter fun t => !t.data.isEmpty).map Trail.unit := by
  have hclosing (entry : Nat × Trail) (hmem : entry ∈ l.going.toList) :
      Assembler.closing entry.1 entry.2.collected =
        if entry.2.data.isEmpty then none else some entry.2.unit := by
    rw [← h.keeps.pid_eq _ _ (Std.ExtTreeMap.mem_toList_iff_getElem?_eq_some.1 hmem)]
    rfl
  calc
    a.flush.1
      = l.going.toList.filterMap (fun entry => Assembler.closing entry.1 entry.2.collected) := by
        rw [Assembler.flush, h.keeps.partials_eq, Std.ExtTreeMap.toList_map, List.filterMap_map]
        rfl
    _ = (l.going.toList.map (·.2)).filterMap
          (fun t => if t.data.isEmpty then none else some t.unit) := by
        rw [List.filterMap_congr hclosing, List.filterMap_map]
        rfl
    _ = _ := filterMap_unit _

/-- What the end does to the ledger. -/
theorem flush (h : Tracks calls free free (openings calls free) a units l)
    (hc : calls[free]? = some .flush) :
    Tracks calls (free + 1) (free + 1) (openings calls (free + 1)) a.flush.2
      (units ++ a.flush.1) l.ending where
  accounts := by
    rw [openings_succ hc]
    simpa [Call.opens] using (h.accounts.perm (Ledger.trails_ending l)).succ
  keeps := Keeps.empty calls (free + 1)
  units_eq := by
    rw [h.units_eq, h.units_flush]
    simp only [Ledger.ending, List.map_append]
  discarded_eq := h.discarded_eq
  isBroken := h.isBroken
  isIdle t ht := by
    rcases List.mem_append.1 ht with ht | ht
    · exact h.isIdle t ht
    · obtain ⟨hopen, hempty⟩ := List.mem_filter.1 ht
      obtain ⟨⟨pid, t⟩, hmem, rfl⟩ := List.mem_map.1 hopen
      have hgoing := Std.ExtTreeMap.mem_toList_iff_getElem?_eq_some.1 hmem
      exact ⟨List.isEmpty_iff.1 hempty, free, .flush, h.last_lt hgoing, hc, .flush⟩

/-- What a call does to the ledger. -/
theorem call (h : Tracks calls free free (openings calls free) a units l) {c : Call}
    (hc : calls[free]? = some c) :
    ∃ l' : Ledger, Tracks calls (free + 1) (free + 1) (openings calls (free + 1)) (a.call c).2
      (units ++ (a.call c).1) l' := by
  cases c with
  | push p => exact h.push hc
  | flush => exact ⟨l.ending, h.flush hc⟩

/-- What the remaining calls do to the ledger. -/
theorem callAll {before rest : List Call} (h : Tracks (before ++ rest) before.length before.length
      (openings (before ++ rest) before.length) a units l) :
    ∃ l' : Ledger, Tracks (before ++ rest) (before ++ rest).length (before ++ rest).length
      (openings (before ++ rest) (before ++ rest).length) (a.callAll rest).2
      (units ++ (a.callAll rest).1) l' := by
  induction rest generalizing before a units l with
  | nil =>
    rw [List.append_nil] at h ⊢
    exact ⟨l, (List.append_nil units).symm ▸ h⟩
  | cons c rest ih =>
    have hc : (before ++ c :: rest)[before.length]? = some c := by simp
    have hnext : before.length + 1 = (before ++ [c]).length := by simp
    obtain ⟨l', h'⟩ := h.call hc
    rw [List.append_cons, hnext] at h'
    obtain ⟨l'', h''⟩ := ih h'
    rw [List.append_cons, Assembler.callAll_cons, ← List.append_assoc]
    exact ⟨l'', h''⟩

theorem initial (calls : List Call) :
    Tracks calls 0 0 (openings calls 0) .initial [] .empty where
  accounts := by
    have hnone : Ledger.empty.trails = [] := rfl
    rw [hnone]
    exact ⟨fun _ ht => (nomatch ht), .nil, List.nodup_nil, fun _ ht => (nomatch ht)⟩
  keeps := Keeps.empty calls 0
  units_eq := rfl
  discarded_eq := rfl
  isBroken := by simp [Ledger.empty]
  isIdle := by simp [Ledger.empty]

end Tracks

/-- Every unit that a run of calls gives is that of a trail among the calls, of packets that can be
used and follow on one another (`Trail.IsCarried`): it has a beginning of what they carry, within its
declared length. No packet is in two trails, and each call that starts a unit starts one of them.
Those that are not given are dropped at a gap, and counted, or interrupted before they have content,
or still open. -/
theorem Assembler.units_of_trails (calls : List Call) :
    ∃ l : Ledger,
      (initial.callAll calls).1 = l.given.map Trail.unit ∧
      (initial.callAll calls).2.discarded = l.dropped.length ∧
      (∀ pid : Nat, (initial.callAll calls).2.partials[pid]? = l.going[pid]?.map Trail.collected) ∧
      (∀ t ∈ l.trails, t.IsCarried ∧ t.Among calls) ∧
      (∀ t ∈ l.given, t.unit.payload <+: t.data ∧
        ∀ size, declaredLength? t.start.packet.payload = some size →
          t.unit.payload.length ≤ size) ∧
      (l.trails.flatMap Trail.places).Nodup ∧
      (l.trails.map (·.start.place)).Perm (openings calls calls.length) ∧
      (∀ t ∈ l.dropped, t.IsBroken calls) ∧
      (∀ t ∈ l.idle, t.data = [] ∧ t.IsInterrupted calls) := by
  have hinitial : Tracks ([] ++ calls) ([] : List Call).length ([] : List Call).length
      (openings ([] ++ calls) ([] : List Call).length) initial [] .empty := Tracks.initial calls
  obtain ⟨l, h⟩ := hinitial.callAll
  rw [List.nil_append, List.nil_append] at h
  exact ⟨l, h.units_eq, h.discarded_eq, h.keeps.collected,
    fun t ht => ⟨t.isCarried, h.accounts.among t ht⟩,
    fun t _ => ⟨t.payload_unit_prefix, fun size => t.length_payload_unit_le⟩,
    h.accounts.nodup_places, h.accounts.opened_perm, h.isBroken, h.isIdle⟩

end StreamCatalog.Pes
