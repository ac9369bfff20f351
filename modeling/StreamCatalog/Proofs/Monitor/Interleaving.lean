import Mathlib.Logic.Relation
import StreamCatalog.Catalog.Memory
import StreamCatalog.Proofs.Monitor.Filing
import StreamCatalog.Proofs.Monitor.Sharing

/-!
# Operations on a registry in any order of their steps

Operations on a registry take their steps in any order, while monitors receive,
commits run and sockets can be bound or not. As long as no operation begins
beside one that it disturbs, and none ends between the change of a title and the
filing under it, every monitor is filed under the title of its stream, and only
removal takes a monitor out of the registry (`RegistryPool.FiledByTitle`). An
operation that does end there leaves its monitor under the old title.
-/

namespace StreamCatalog

/-- Operations on a registry. -/
structure RegistryPool (ι σ : Type) where
  /-- How far each operation has come. -/
  stage : ι → RegistryStage
  /-- The registry. -/
  registry : SharedRegistry σ

namespace RegistryPool

variable {ι σ : Type}

/-- Before the first step. -/
def initial (ι : Type) (catalog : σ) : RegistryPool ι σ := ⟨fun _ => .start, .empty catalog⟩

/-- Whether an operation begins beside one that it disturbs, or that disturbs it. -/
def Collides (ops : ι → RegistryOperation) (i : ι) (pool : RegistryPool ι σ) : Prop :=
  (pool.stage i).isStart = true ∧ ∃ j, (pool.stage j).isRunning = true ∧
    ((ops i).IsDisturbedBy (ops j) ∨ (ops j).IsDisturbedBy (ops i))

/-- Whether an operation ends with the next step, although the monitor of its title has got another
title and was not filed under that. -/
def Strands (E : Environment σ) (bound : List SocketAddress) (ops : ι → RegistryOperation) (i : ι)
    (pool : RegistryPool ι σ) : Prop :=
  (pool.stage i).isRenewed = true ∧
    ((ops i).step E bound (pool.stage i) pool.registry).1.isFinished = true ∧
    (ops i).renames = true ∧ (ops i).title ∈ pool.registry.filed

instance (E : Environment σ) (bound : List SocketAddress) (ops : ι → RegistryOperation) (i : ι)
    (pool : RegistryPool ι σ) : Decidable (pool.Strands E bound ops i) :=
  inferInstanceAs (Decidable (_ ∧ _))

variable [DecidableEq ι]

/-- The next step of one operation. -/
def advance (E : Environment σ) (bound : List SocketAddress) (ops : ι → RegistryOperation) (i : ι)
    (pool : RegistryPool ι σ) : RegistryPool ι σ :=
  let (stage, registry) := (ops i).step E bound (pool.stage i) pool.registry
  ⟨Function.update pool.stage i stage, registry⟩

/-- What can happen next: an operation takes a step, whatever the network answers, or monitors
change in something other than their configurations. -/
inductive Step (ops : ι → RegistryOperation) : RegistryPool ι σ → RegistryPool ι σ → Prop where
  /-- An operation takes a step. -/
  | advance (pool : RegistryPool ι σ) (E : Environment σ) (bound : List SocketAddress) (i : ι)
      (calm : ¬ pool.Collides ops i) (lands : ¬ pool.Strands E bound ops i) :
    Step ops pool (pool.advance E bound ops i)
  /-- Monitors, chunks and catalog change, and the configurations stay. -/
  | elsewhere (pool : RegistryPool ι σ) (registry : SharedRegistry σ)
      (filed : registry.filed = pool.registry.filed)
      (configs : registry.monitors.map (·.config) = pool.registry.monitors.map (·.config)) :
    Step ops pool { pool with registry := registry }

/-- The pools that steps in any order lead to. -/
abbrev Reaches (ops : ι → RegistryOperation) : RegistryPool ι σ → RegistryPool ι σ → Prop :=
  Relation.ReflTransGen (Step ops)

variable {ops : ι → RegistryOperation} {pool : RegistryPool ι σ} {catalog : σ}
  {E : Environment σ} {bound : List SocketAddress} {i : ι}

/-- The next step of an operation is one of its moves. -/
theorem advance_spec (E : Environment σ) (bound : List SocketAddress) (ops : ι → RegistryOperation)
    (i : ι) (pool : RegistryPool ι σ) :
    ∃ next, (pool.advance E bound ops i).stage = Function.update pool.stage i next ∧
      next = ((ops i).step E bound (pool.stage i) pool.registry).1 ∧
      FilingMove (ops i) (pool.stage i) pool.registry.view next
        (pool.advance E bound ops i).registry.view :=
  ⟨_, rfl, rfl, (ops i).step_spec E bound (pool.stage i) pool.registry⟩

/-- Steps in any order keep the filing consistent. -/
theorem Reaches.consistent (h : Reaches ops (initial ι catalog) pool) :
    Filing.Consistent ops pool.stage pool.registry.view := by
  induction h with
  | refl => exact .initial ops
  | tail _ hstep ih =>
    cases hstep with
    | advance E bound i calm lands =>
      obtain ⟨next, hnext, hstep, hmove⟩ := advance_spec E bound ops i _
      rw [hnext]
      refine ih.move rfl rfl hmove ?_ ?_
      · intro hstart j hrunning
        constructor
        · intro hdisturbed
          exact calm ⟨by rw [hstart]; rfl, j, hrunning, .inl hdisturbed⟩
        · intro hdisturbed
          exact calm ⟨by rw [hstart]; rfl, j, hrunning, .inr hdisturbed⟩
      · intro id config result hrenewed hfinished hrenames hmem
        exact lands ⟨by rw [hrenewed]; rfl, by rw [← hstep, hfinished]; rfl, hrenames, hmem⟩
    | elsewhere registry filed configs =>
      have hview := SharedRegistry.view_eq_of_configs filed configs
      rw [hview]
      exact ih

/-- Steps of several operations, one after the other. -/
def advanceAll (E : Environment σ) (bound : List SocketAddress) (ops : ι → RegistryOperation)
    (is : List ι) (pool : RegistryPool ι σ) : RegistryPool ι σ :=
  is.foldl (fun pool i => pool.advance E bound ops i) pool

/-- Whether none of these steps begins beside an operation that is disturbed, or leaves a monitor
under an old title. -/
def Admits (E : Environment σ) (bound : List SocketAddress) (ops : ι → RegistryOperation) :
    List ι → RegistryPool ι σ → Prop
  | [], _ => True
  | i :: is, pool => (¬ pool.Collides ops i ∧ ¬ pool.Strands E bound ops i) ∧
      Admits E bound ops is (pool.advance E bound ops i)

theorem reaches_advanceAll {is : List ι} (h : Admits E bound ops is pool) :
    Reaches ops pool (pool.advanceAll E bound ops is) := by
  induction is generalizing pool with
  | nil => exact .refl
  | cons i is ih => exact .head (.advance pool E bound i h.1.1 h.1.2) (ih h.2)

/-! ## Filing -/

/-- Whether an operation has given the monitor that is filed under a title another one, and has yet
to file it under that. -/
structure IsRefiling (ops : ι → RegistryOperation) (i : ι) (title : String)
    (pool : RegistryPool ι σ) : Prop where
  /-- The operation gives the stream another title. -/
  renames : (ops i).renames = true
  /-- It has found the monitor under this one. -/
  title_eq : (ops i).title = title
  /-- The monitor has the new configuration. -/
  isChanged : (pool.stage i).isChanged = true
  /-- It is the monitor that is filed under the title. -/
  id?_eq : (pool.stage i).id? = pool.registry.filed[title]?

/-- What operations keep true of the filing. -/
structure FiledByTitle (ops : ι → RegistryOperation) (pool : RegistryPool ι σ) : Prop where
  /-- A title that is filed has a monitor. -/
  exists_monitor : ∀ title ∈ pool.registry.filed, ∃ m, pool.registry.get? title = some m
  /-- A monitor is filed under the title of its stream, unless an operation has changed that and has
  yet to file the monitor under the new one. -/
  title_eq : ∀ title m, pool.registry.get? title = some m → m.config.title = title ∨
    ∃ i, pool.IsRefiling ops i title ∧ m.config.title = (ops i).newTitle
  /-- When no operation runs, each monitor is filed under the title of its stream. -/
  title_eq_of_idle : (∀ i, (pool.stage i).isRunning = false) → ∀ title m,
    pool.registry.get? title = some m → m.config.title = title
  /-- No two monitors have the same title. -/
  title_inj : ∀ title other m n, pool.registry.get? title = some m →
    pool.registry.get? other = some n → m.config.title = n.config.title → title = other
  /-- A monitor that is filed stays so, unless it is the one that is removed. -/
  kept : ∀ (E : Environment σ) bound i (title : String) id,
    pool.registry.filed[title]? = some id → ops i = .remove title ∨
      ∃ other : String, (pool.advance E bound ops i).registry.filed[other]? = some id
  /-- An operation that ends between the change of a title and the filing leaves the monitor under
  the old title. Nothing is filed under the new one, and no operation is about to change that. -/
  stranded : ∀ (E : Environment σ) bound i, pool.Strands E bound ops i →
    (∃ m, (pool.advance E bound ops i).registry.get? (ops i).title = some m ∧
      m.config.title = (ops i).newTitle) ∧
    (ops i).newTitle ≠ (ops i).title ∧
    (ops i).newTitle ∉ (pool.advance E bound ops i).registry.filed ∧
    ∀ j, ¬ (pool.advance E bound ops i).IsRefiling ops j (ops i).title

/-- A monitor that is filed has a title. -/
theorem get?_eq_some_iff {s : SharedRegistry σ} {title : String} {m : Monitor} :
    s.get? title = some m ↔ ∃ id, s.filed[title]? = some id ∧ s.monitors[id]? = some m :=
  Option.bind_eq_some_iff

/-- A monitor that is filed is seen under its title. -/
theorem view_of_get? {s : SharedRegistry σ} {title : String} {m : Monitor}
    (h : s.get? title = some m) : ∃ id, s.view.filed[title]? = some id ∧
      s.view.titles[id]? = some m.config.title := by
  obtain ⟨id, hfiled, hm⟩ := get?_eq_some_iff.1 h
  refine ⟨id, hfiled, ?_⟩
  rw [SharedRegistry.getElem?_titles, hm]
  rfl

/-- A title that is seen is that of a monitor that is filed. -/
theorem exists_get? {s : SharedRegistry σ} {title current : String} {id : Nat}
    (hfiled : s.view.filed[title]? = some id) (htitle : s.view.titles[id]? = some current) :
    ∃ m, s.get? title = some m ∧ m.config.title = current := by
  rw [SharedRegistry.getElem?_titles] at htitle
  obtain ⟨m, hm, htitle⟩ := Option.map_eq_some_iff.1 htitle
  exact ⟨m, get?_eq_some_iff.2 ⟨id, hfiled, hm⟩, htitle⟩

/-- An operation that cannot start its monitor again ends, and leaves the filing alone. -/
theorem Strands.advance_eq (h : pool.Strands E bound ops i) :
    (pool.advance E bound ops i).registry.view = pool.registry.view ∧
      ∃ result, (pool.advance E bound ops i).stage =
        Function.update pool.stage i (.finished result) := by
  obtain ⟨hrenewed, hfinished, -, -⟩ := h
  obtain ⟨next, hnext, hstep, hmove⟩ := advance_spec E bound ops i pool
  rw [← hstep] at hfinished
  obtain ⟨hview, result, rfl⟩ := hmove.of_isRenewed hrenewed hfinished
  exact ⟨hview, result, hnext⟩

omit [DecidableEq ι] in
/-- The monitor of an operation that is stranded has the new title, is filed under the old one, and
nothing is filed under the new one. -/
theorem Strands.exists_monitor (hstrands : pool.Strands E bound ops i)
    (h : Filing.Consistent ops pool.stage pool.registry.view) :
    ∃ id, (pool.stage i).id? = some id ∧
      pool.registry.view.filed[(ops i).title]? = some id ∧
      pool.registry.view.titles[id]? = some (ops i).newTitle ∧
      (ops i).newTitle ∉ pool.registry.view.filed := by
  obtain ⟨hrenewed, -, hrenames, hmem⟩ := hstrands
  obtain ⟨id, hid, hchanged⟩ := RegistryStage.exists_id?_of_isRenewed hrenewed
  have hfits := h.fits i id (RegistryOperation.isUpdate_of_renames hrenames) hid
  obtain ⟨n, hfiled⟩ := exists_getElem?_of_mem hmem
  obtain rfl : n = id := hfits.own hrenames n hfiled
  have htitle := hfits.title_eq
  rw [hchanged, if_pos rfl] at htitle
  have hclaimed := RegistryStage.isClaimed_of_isChanged hchanged
  exact ⟨n, hid, hfiled, htitle, hfits.free hrenames hclaimed⟩

/-- No operation is about to file the monitor of one that was stranded. -/
theorem Strands.not_isRefiling (hstrands : pool.Strands E bound ops i)
    (h : Filing.Consistent ops pool.stage pool.registry.view) (j : ι) :
    ¬ (pool.advance E bound ops i).IsRefiling ops j (ops i).title := by
  rintro ⟨hjrenames, hjtitle, hjchanged, hjid⟩
  obtain ⟨id, hid, hfiled, -⟩ := hstrands.exists_monitor h
  obtain ⟨hview, result, hstage⟩ := hstrands.advance_eq
  rw [hstage] at hjchanged hjid
  by_cases hj : j = i
  · rw [hj, Function.update_self] at hjchanged
    cases hjchanged
  · rw [Function.update_of_ne hj] at hjid
    have hstill : (pool.advance E bound ops i).registry.view.filed[(ops i).title]? = some id := by
      rw [hview]
      exact hfiled
    -- The other operation changes the same stream, and would disturb the one that was stranded.
    exact h.apart i j (Ne.symm hj) (RegistryStage.isRunning_of_id? hid)
      (RegistryStage.isRunning_of_id? (hjid.trans hstill))
      ⟨hstrands.2.2.1, .inl ⟨RegistryOperation.isUpdate_of_renames hjrenames, hjtitle⟩⟩

/-- As long as no operation begins beside one that it disturbs, and none ends between the change of
a title and the filing, monitors are filed under the titles of their streams. -/
theorem filed_by_title (hreaches : Reaches ops (initial ι catalog) pool) :
    FiledByTitle ops pool := by
  have h := hreaches.consistent
  have hcases : ∀ title m, pool.registry.get? title = some m → m.config.title = title ∨
      ∃ i, pool.IsRefiling ops i title ∧ m.config.title = (ops i).newTitle := by
    intro title m hm
    obtain ⟨id, hfiled, htitle⟩ := view_of_get? hm
    rcases h.title_cases hfiled htitle with hsame | ⟨i, hrenames, hid, hchanged, hold, hnew, -⟩
    · exact .inl hsame
    · exact .inr ⟨i, ⟨hrenames, hold, hchanged, hid.trans hfiled.symm⟩, hnew⟩
  constructor
  case exists_monitor =>
    intro title hmem
    obtain ⟨id, hfiled⟩ := exists_getElem?_of_mem hmem
    have hlt := h.numbering.lt_count title id hfiled
    obtain ⟨m, hm, -⟩ := exists_get? hfiled (List.getElem?_eq_getElem hlt)
    exact ⟨m, hm⟩
  case title_eq => exact hcases
  case title_eq_of_idle =>
    intro hidle title m hm
    rcases hcases title m hm with hsame | ⟨i, hrefiling, -⟩
    · exact hsame
    · have hid := hrefiling.id?_eq
      obtain ⟨id, hfiled, -⟩ := view_of_get? hm
      have hrunning := RegistryStage.isRunning_of_id? (hid.trans hfiled)
      rw [hidle i] at hrunning
      cases hrunning
  case title_inj =>
    intro title other m n hm hn hsame
    obtain ⟨id, hfiled, htitle⟩ := view_of_get? hm
    obtain ⟨k, hother, hothertitle⟩ := view_of_get? hn
    exact h.eq_of_title_eq hfiled htitle hother (hsame ▸ hothertitle)
  case kept =>
    intro E bound i title id hfiled
    obtain ⟨next, -, -, hmove⟩ := advance_spec E bound ops i pool
    exact h.kept rfl rfl hmove hfiled
  case stranded =>
    intro E bound i hstrands
    obtain ⟨id, hid, hfiled, htitle, hfree⟩ := hstrands.exists_monitor h
    rw [← hstrands.advance_eq.1] at hfiled htitle hfree
    exact ⟨exists_get? hfiled htitle, RegistryOperation.renames_iff.1 hstrands.2.2.1, hfree,
      hstrands.not_isRefiling h⟩

/-! ## Runs -/

instance (n : Nat) (ops : Fin n → RegistryOperation) (i : Fin n) (pool : RegistryPool (Fin n) σ) :
    Decidable (pool.Collides ops i) :=
  inferInstanceAs (Decidable (_ ∧ _))

instance decidableAdmits (n : Nat) (E : Environment σ) (bound : List SocketAddress)
    (ops : Fin n → RegistryOperation) : (is : List (Fin n)) → (pool : RegistryPool (Fin n) σ) →
    Decidable (Admits E bound ops is pool)
  | [], _ => inferInstanceAs (Decidable True)
  | i :: is, pool =>
    have := decidableAdmits n E bound ops is (pool.advance E bound ops i)
    inferInstanceAs (Decidable (_ ∧ _))

/-- A stream on a port of this host. -/
private def streamOn (title : String) (port : UInt16) : StreamConfig where
  title := title
  monitoredAddress := "udp://127.0.0.1:5000"
  address := ⟨.v4 ⟨127, 0, 0, 1⟩, port⟩
  byteCount := 1000
  elapsedTime := 1000
  idleTimeout := 1000
  initialDelay := 0
  startImmediately := false
  distanceTolerance := 0
  parentTitle := none

/-- A host without interfaces. -/
private def isolatedHost : Environment MemoryCatalog where
  catalog := MemoryCatalog.catalog
  network := .isolated
  now := ⟨⟨0, 0⟩, 0⟩

/-- A change of the title, and of the address to a port of this host. -/
private def moving (title newTitle address : String) : RegistryOperation :=
  .update title (.ofList [(PropertyName.title, PropertyValue.text newTitle),
    (PropertyName.monitoredAddress, PropertyValue.text address)])

/-- A stream is renamed, and restarted on another port, while others are added and removed. -/
private def movingAmongOthers : Fin 6 → RegistryOperation :=
  fun i => [.add (streamOn "alpha" 5000), .start "alpha",
    moving "alpha" "gamma" "udp://127.0.0.1:5001", .add (streamOn "beta" 5002),
    .start "alpha", .remove "beta"][i]

/-- A stream that is renamed and restarted is filed under its new title. -/
theorem filed_by_title_among_others :
    let start : RegistryPool (Fin 6) MemoryCatalog := initial (Fin 6) .empty
    let finish := start.advanceAll isolatedHost [] movingAmongOthers
      [0, 1, 1, 2, 2, 2, 3, 2, 2, 5, 2, 4, 2, 5]
    (finish.registry.filed.toList = [("gamma", 0)] ∧
      (finish.registry.get? "gamma").map (·.receiving) = some true) ∧
      FiledByTitle movingAmongOthers finish := by
  refine ⟨by decide +kernel, filed_by_title (reaches_advanceAll ?_)⟩
  decide +kernel

/-- Streams of which the first is to get another title and the address of the second. -/
private def movingToTaken : List (Environment MemoryCatalog × RegistryOperation) :=
  [.add (streamOn "alpha" 5000), .add (streamOn "beta" 5001), .start "alpha", .start "beta",
    moving "alpha" "gamma" "udp://127.0.0.1:5001"].map (isolatedHost, ·)

/-- A stream that cannot be received on its new address stays under its old title with the new one.
Another stream may get the new title then, and is lost with the next change of the first. -/
theorem filed_under_old_title :
    let filed (calls : List (Environment MemoryCatalog × RegistryOperation)) :=
      (RegistryOperation.runAll (movingToTaken ++ calls) (Registry.empty .empty)).toList.map
        fun (title, m) => (title, m.config.title)
    filed [] = [("alpha", "gamma"), ("beta", "beta")] ∧
      filed [(isolatedHost, .add (streamOn "gamma" 5002))] =
        [("alpha", "gamma"), ("beta", "beta"), ("gamma", "gamma")] ∧
      filed [(isolatedHost, .add (streamOn "gamma" 5002)), (isolatedHost, .update "alpha" ∅)] =
        [("beta", "beta"), ("gamma", "gamma")] := by
  decide +kernel

/-- Operations that disturb each other misfile monitors: one that renames a stream, and one that
adds a stream of the new title, or one of the old title, or renames the same stream. -/
theorem misfiled_when_disturbed :
    let filed (ops : List RegistryOperation) (is : List (Fin 4)) :=
      let start : RegistryPool (Fin 4) MemoryCatalog := initial (Fin 4) .empty
      let finish := start.advanceAll isolatedHost [] (fun i => ops[i]?.getD (.start "")) is
      finish.registry.filed.toList.map fun (title, id) =>
        (title, id, finish.registry.monitors[id]?.map (·.config.title))
    filed [.add (streamOn "alpha" 5000), moving "alpha" "gamma" "udp://127.0.0.1:5001",
        .add (streamOn "gamma" 5002)] [0, 1, 1, 2, 1, 1] = [("gamma", 0, some "gamma")] ∧
      filed [.add (streamOn "alpha" 5000), moving "alpha" "gamma" "udp://127.0.0.1:5001",
        .remove "alpha", .add (streamOn "alpha" 5002)] [0, 1, 1, 2, 2, 3, 1, 1] =
          [("gamma", 1, some "alpha")] ∧
      filed [.add (streamOn "alpha" 5000), moving "alpha" "gamma" "udp://127.0.0.1:5001",
        moving "alpha" "delta" "udp://127.0.0.1:5002"] [0, 1, 1, 2, 2, 1, 2, 1, 2] =
          [("gamma", 0, some "delta")] := by
  decide +kernel

end RegistryPool

end StreamCatalog
