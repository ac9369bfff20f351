import StreamCatalog.Proofs.Pes.Trails

/-!
# What becomes of units

A `Ledger` has a trail for each unit that was started: it was given, dropped at a gap, left for
want of content, or is still open. A unit moves from one part to another and stays one of the
trails. `Accounts` says of all trails that they are among the calls and share no packet, `Keeps`
of the open ones that they are what is collected.
-/

namespace StreamCatalog.Pes

open Transport (Packet)

/-- What has become of the units that were started. -/
structure Ledger where
  /-- The units that were given. -/
  given : List Trail
  /-- The units that were dropped at a gap. -/
  dropped : List Trail
  /-- The units that ended without content. -/
  idle : List Trail
  /-- The units that are still open, by identifier. -/
  going : Std.ExtTreeMap Nat Trail

namespace Ledger

/-- All units. -/
def trails (l : Ledger) : List Trail :=
  l.given ++ (l.dropped ++ (l.idle ++ l.going.toList.map (·.2)))

/-- Nothing has started. -/
def empty : Ledger := ⟨[], [], [], ∅⟩

/-- The ledger without the open unit of an identifier. -/
def without (l : Ledger) (pid : Nat) : Ledger := { l with going := l.going.erase pid }

/-- The ledger with an open unit. -/
def opening (l : Ledger) (t : Trail) : Ledger := { l with going := l.going.insert t.pid t }

/-- A unit that was open is given. -/
def giving (l : Ledger) (t : Trail) : Ledger := { l.without t.pid with given := l.given ++ [t] }

/-- A unit that was open is dropped. -/
def dropping (l : Ledger) (t : Trail) : Ledger :=
  { l.without t.pid with dropped := l.dropped ++ [t] }

/-- A unit that was open is left. -/
def leaving (l : Ledger) (t : Trail) : Ledger := { l.without t.pid with idle := l.idle ++ [t] }

/-- All units that were open end. -/
def ending (l : Ledger) : Ledger where
  given := l.given ++ (l.going.toList.map (·.2)).filter fun t => !t.data.isEmpty
  dropped := l.dropped
  idle := l.idle ++ (l.going.toList.map (·.2)).filter fun t => t.data.isEmpty
  going := ∅

variable {l : Ledger} {t : Trail} {pid : Nat}

theorem trails_perm_cons (h : l.going[pid]? = some t) :
    l.trails.Perm (t :: (l.without pid).trails) := by
  have hgoing : (l.going.toList.map (·.2)).Perm (t :: (l.going.erase pid).toList.map (·.2)) :=
    (toList_perm_of_getElem? h).map (·.2)
  have hmiddle := ((hgoing.append_left l.idle).append_left l.dropped).append_left l.given
  simp only [← List.append_assoc] at hmiddle
  refine Eq.symm (trails.eq_1 l) ▸ ?_
  simp only [← List.append_assoc, trails, without]
  exact hmiddle.trans List.perm_middle

theorem without_opening (l : Ledger) (t : Trail) : (l.opening t).without t.pid = l.without t.pid := by
  simp only [without, opening, erase_insert_same]

/-- An open unit replaces what was open, if anything. -/
theorem trails_opening (l : Ledger) (t : Trail) :
    (l.opening t).trails.Perm (t :: (l.without t.pid).trails) :=
  without_opening l t ▸ trails_perm_cons Std.ExtTreeMap.getElem?_insert_self

theorem without_eq_self (h : l.going[pid]? = none) : l.without pid = l := by
  rw [without, erase_of_getElem?_eq_none h]

theorem trails_giving (h : l.going[t.pid]? = some t) : (l.giving t).trails.Perm l.trails := by
  refine List.Perm.trans ?_ (trails_perm_cons h).symm
  simp only [trails, giving, without, List.append_assoc, List.singleton_append]
  exact List.perm_middle

theorem trails_dropping (h : l.going[t.pid]? = some t) : (l.dropping t).trails.Perm l.trails := by
  refine List.Perm.trans ?_ (trails_perm_cons h).symm
  simp only [trails, dropping, without, List.append_assoc, List.singleton_append]
  simp only [← List.append_assoc l.given]
  exact List.perm_middle

theorem trails_leaving (h : l.going[t.pid]? = some t) : (l.leaving t).trails.Perm l.trails := by
  refine List.Perm.trans ?_ (trails_perm_cons h).symm
  simp only [trails, leaving, without, List.append_assoc, List.singleton_append]
  simp only [← List.append_assoc]
  exact List.perm_middle

theorem trails_ending (l : Ledger) : l.ending.trails.Perm l.trails := by
  have hparts := List.filter_append_perm (fun t : Trail => t.data.isEmpty)
    (l.going.toList.map (·.2))
  have hnone : (∅ : Std.ExtTreeMap Nat Trail).toList = [] := rfl
  simp only [trails, ending, hnone, List.map_nil, List.append_nil, List.append_assoc]
  refine List.Perm.append_left l.given ?_
  refine (List.perm_append_comm_assoc _ _ _).trans (List.Perm.append_left l.dropped ?_)
  refine (List.perm_append_comm_assoc _ _ _).trans (List.Perm.append_left l.idle ?_)
  exact List.perm_append_comm.trans hparts

end Ledger

/-! ## Trails among the calls -/

/-- Whether trails are among the calls, one for each start, and share no packet. No place from
`free` on is used. -/
structure Accounts (calls : List Call) (free : Nat) (opened : List Nat) (ts : List Trail) : Prop where
  /-- Each trail is among the calls. -/
  among : ∀ t ∈ ts, t.Among calls
  /-- There is one for each start. -/
  opened_perm : (ts.map (·.start.place)).Perm opened
  /-- No packet is used twice. -/
  nodup_places : (ts.flatMap Trail.places).Nodup
  /-- Later places are not used. -/
  place_lt : ∀ t ∈ ts, ∀ place ∈ t.places, place < free

namespace Accounts

variable {calls : List Call} {free : Nat} {opened : List Nat} {ts ts' : List Trail} {t : Trail}

theorem perm (h : Accounts calls free opened ts) (hperm : ts'.Perm ts) :
    Accounts calls free opened ts' where
  among t ht := h.among t (hperm.mem_iff.1 ht)
  opened_perm := (hperm.map _).trans h.opened_perm
  nodup_places := (hperm.flatMap_right Trail.places).nodup_iff.2 h.nodup_places
  place_lt t ht := h.place_lt t (hperm.mem_iff.1 ht)

theorem succ (h : Accounts calls free opened ts) : Accounts calls (free + 1) opened ts :=
  { h with place_lt := fun t ht place hplace => Nat.lt_succ_of_lt (h.place_lt t ht place hplace) }

/-- A unit starts. -/
theorem begun (h : Accounts calls free opened ts) {start : Arrival} {header : Partial}
    {starts : Starts start.packet}
    {header_eq : startUnit start.packet.payload start.packet.continuity = some header}
    (hcall : calls[free]? = some (.push start.packet)) (hplace : start.place = free) :
    Accounts calls (free + 1) (opened ++ [free])
      (Trail.begun start header starts header_eq :: ts) where
  among t ht := by
    rcases List.mem_cons.1 ht with rfl | ht
    · refine ⟨fun a ha => ?_, fun k c hafter hbefore => absurd (hafter.trans hbefore) (Nat.lt_irrefl _)⟩
      obtain rfl := List.mem_singleton.1 ha
      rw [hplace, hcall]
    · exact h.among t ht
  opened_perm := by
    rw [List.map_cons]
    refine ((h.opened_perm.cons _).trans ?_)
    rw [show (Trail.begun start header starts header_eq).start.place = free from hplace]
    exact (List.perm_append_singleton _ _).symm
  nodup_places := by
    rw [List.flatMap_cons]
    refine List.nodup_cons.2 ⟨fun hmem => ?_, h.nodup_places⟩
    obtain ⟨t, ht, hused⟩ := List.mem_flatMap.1 hmem
    exact absurd (hplace ▸ h.place_lt t ht _ hused) (Nat.lt_irrefl _)
  place_lt t ht place hused := by
    rcases List.mem_cons.1 ht with rfl | ht
    · obtain rfl := List.mem_singleton.1 hused
      exact hplace ▸ Nat.lt_succ_self _
    · exact Nat.lt_succ_of_lt (h.place_lt t ht place hused)

/-- A packet goes on with a unit that nothing has interrupted. -/
theorem extended (h : Accounts calls free opened (t :: ts)) {a : Arrival}
    {continues : Continues a.packet} {pid_eq : a.packet.pid = t.pid}
    {follows : Follows t.last.packet.continuity a.packet}
    {after : ∀ place ∈ t.places, place < a.place}
    (hcall : calls[free]? = some (.push a.packet)) (hplace : a.place = free)
    (hundisturbed : ∀ k c, t.start.place < k → k < free → calls[k]? = some c →
      ¬Interrupts t.pid c) :
    Accounts calls (free + 1) opened (t.extended a continues pid_eq follows after :: ts) where
  among t' ht' := by
    rcases List.mem_cons.1 ht' with rfl | ht'
    · refine ⟨fun b hb => ?_, fun k c hafter hbefore => ?_⟩
      · rw [Trail.arrivals_extended] at hb
        rcases List.mem_append.1 hb with hb | hb
        · exact (h.among t List.mem_cons_self).happened b hb
        · obtain rfl := List.mem_singleton.1 hb
          rw [hplace, hcall]
      · rw [Trail.last_extended, hplace] at hbefore
        exact hundisturbed k c hafter hbefore
    · exact h.among t' (List.mem_cons_of_mem t ht')
  opened_perm := h.opened_perm
  nodup_places := by
    have hnodup := h.nodup_places
    rw [List.flatMap_cons] at hnodup ⊢
    rw [Trail.places_extended, List.append_assoc, List.singleton_append]
    refine (List.perm_middle.nodup_iff).2 (List.nodup_cons.2 ⟨fun hmem => ?_, hnodup⟩)
    rw [← List.flatMap_cons] at hmem
    obtain ⟨t', ht', hused⟩ := List.mem_flatMap.1 hmem
    exact absurd (hplace ▸ h.place_lt t' ht' _ hused) (Nat.lt_irrefl _)
  place_lt t' ht' place hused := by
    rcases List.mem_cons.1 ht' with rfl | ht'
    · rw [Trail.places_extended] at hused
      rcases List.mem_append.1 hused with hused | hused
      · exact Nat.lt_succ_of_lt (h.place_lt t List.mem_cons_self place hused)
      · obtain rfl := List.mem_singleton.1 hused
        exact hplace ▸ Nat.lt_succ_self _
    · exact Nat.lt_succ_of_lt (h.place_lt t' (List.mem_cons_of_mem t ht') place hused)

end Accounts

/-! ## Open trails -/

/-- Whether what is collected is that of open trails, which are kept by their identifiers and were
not interrupted before the call `seen`. -/
structure Keeps (calls : List Call) (seen : Nat) (partials : Std.ExtTreeMap Nat Partial)
    (going : Std.ExtTreeMap Nat Trail) : Prop where
  /-- What is collected is that of a trail. -/
  collected : ∀ pid : Nat, partials[pid]? = going[pid]?.map Trail.collected
  /-- Trails are kept by their identifiers. -/
  pid_eq : ∀ (pid : Nat) t, going[pid]? = some t → t.pid = pid
  /-- They were not interrupted. -/
  undisturbed : ∀ (pid : Nat) t, going[pid]? = some t → ∀ k c, t.start.place < k → k < seen →
    calls[k]? = some c → ¬Interrupts pid c

namespace Keeps

variable {calls : List Call} {seen : Nat} {partials : Std.ExtTreeMap Nat Partial}
  {going : Std.ExtTreeMap Nat Trail} {pid : Nat} {t : Trail}

theorem empty (calls : List Call) (seen : Nat) : Keeps calls seen ∅ ∅ where
  collected _ := rfl
  pid_eq pid t ht := by simp at ht
  undisturbed pid t ht := by simp at ht

theorem partials_eq (h : Keeps calls seen partials going) :
    partials = going.map fun _ t => t.collected := by
  apply Std.ExtTreeMap.ext_getElem?
  intro pid
  rw [h.collected, Std.ExtTreeMap.getElem?_map]

theorem exists_trail (h : Keeps calls seen partials going) {u : Partial}
    (hu : partials[pid]? = some u) :
    ∃ t : Trail, going[t.pid]? = some t ∧ t.pid = pid ∧ t.collected = u := by
  rw [h.collected, Option.map_eq_some_iff] at hu
  obtain ⟨t, ht, hcollected⟩ := hu
  obtain rfl := h.pid_eq pid t ht
  exact ⟨t, ht, rfl, hcollected⟩

/-- A call interrupts no open unit. -/
theorem passed (h : Keeps calls seen partials going)
    (hpassed : ∀ (pid : Nat) t c, going[pid]? = some t → calls[seen]? = some c →
      ¬Interrupts pid c) :
    Keeps calls (seen + 1) partials going where
  collected := h.collected
  pid_eq := h.pid_eq
  undisturbed pid t ht k c hafter hbefore hc := by
    rcases Nat.lt_succ_iff_lt_or_eq.1 hbefore with hbefore | rfl
    · exact h.undisturbed pid t ht k c hafter hbefore hc
    · exact hpassed pid t c ht hc

/-- The open unit of an identifier ends. -/
theorem erase (h : Keeps calls seen partials going) (pid : Nat) :
    Keeps calls seen (partials.erase pid) (going.erase pid) := by
  have hgoing (other : Nat) (t : Trail) (ht : (going.erase pid)[other]? = some t) :
      going[other]? = some t := by
    rw [Std.ExtTreeMap.getElem?_erase] at ht
    split at ht
    case isTrue => cases ht
    case isFalse => exact ht
  refine ⟨fun other => ?_, fun other t ht => h.pid_eq other t (hgoing other t ht),
    fun other t ht => h.undisturbed other t (hgoing other t ht)⟩
  rw [Std.ExtTreeMap.getElem?_erase, Std.ExtTreeMap.getElem?_erase, h.collected]
  split <;> rfl

/-- A unit is open that was not interrupted. -/
theorem insert (h : Keeps calls seen partials going) (t : Trail)
    (hundisturbed : ∀ k c, t.start.place < k → k < seen → calls[k]? = some c →
      ¬Interrupts t.pid c) :
    Keeps calls seen (partials.insert t.pid t.collected) (going.insert t.pid t) := by
  have hgoing (other : Nat) (s : Trail) (hs : (going.insert t.pid t)[other]? = some s) :
      (t.pid = other ∧ t = s) ∨ going[other]? = some s := by
    rw [Std.ExtTreeMap.getElem?_insert] at hs
    split at hs
    case isTrue heq => exact .inl ⟨compare_eq_iff_eq.1 heq, Option.some.inj hs⟩
    case isFalse => exact .inr hs
  refine ⟨fun other => ?_, fun other s hs => ?_, fun other s hs => ?_⟩
  · rw [Std.ExtTreeMap.getElem?_insert, Std.ExtTreeMap.getElem?_insert, h.collected]
    split <;> rfl
  · rcases hgoing other s hs with ⟨rfl, rfl⟩ | hs
    · rfl
    · exact h.pid_eq other s hs
  · rcases hgoing other s hs with ⟨rfl, rfl⟩ | hs
    · exact hundisturbed
    · exact h.undisturbed other s hs

end Keeps

end StreamCatalog.Pes
