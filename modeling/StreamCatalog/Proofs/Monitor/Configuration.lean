import StreamCatalog.Monitor.Shared
import StreamCatalog.Proofs.Stream.Config

/-!
# What becomes of the configuration of a monitor

A configuration has the title that its properties give, so a change of
properties keeps the title or replaces it by the one that is asked for
(`StreamConfig.title_merged`). Starting, stopping and receiving leave the
configuration as it is; a change of properties that succeeds replaces it.
-/

namespace StreamCatalog

/-! ## Titles -/

namespace StreamConfig

/-- A change of properties keeps the title, or gives the one that is asked for. -/
theorem title_merged {c merged : StreamConfig} {changes : Properties}
    (h : c.merged changes = .ok merged) :
    merged.title = (askedTitle? changes).getD c.title := by
  have htitle := title_ofProperties h
  rw [Properties.getElem?_overlay, title_toProperties] at htitle
  unfold askedTitle?
  cases hasked : changes[PropertyName.title]? with
  | none =>
    rw [hasked] at htitle
    exact (PropertyValue.text.inj (Option.some.inj htitle)).symm
  | some v =>
    rw [hasked] at htitle
    rw [Option.some.inj htitle]
    rfl

end StreamConfig

/-! ## Monitors -/

namespace MonitorSite

variable {σ : Type}

@[simp] theorem config_withConfig (w : MonitorSite σ) (config : StreamConfig) :
    (w.withConfig config).monitor.config = config :=
  rfl

@[simp] theorem config_happen (e : SessionEvent) (now : Moment) (w : MonitorSite σ) :
    (w.happen e now).monitor.config = w.monitor.config := by
  unfold happen
  split <;> rfl

@[simp] theorem config_start (E : Environment σ) (bound : List SocketAddress)
    (w : MonitorSite σ) : (w.start E bound).2.monitor.config = w.monitor.config := by
  unfold start
  simp only
  split
  · rfl
  · split <;> rfl

@[simp] theorem config_stop (E : Environment σ) (w : MonitorSite σ) :
    (w.stop E).2.monitor.config = w.monitor.config := by
  unfold stop
  simp only
  split
  · exact config_happen ..
  · rfl

/-- A socket is bound to an address, or not, by what the system refuses. -/
theorem bind_congr (network : Network) (bound : List SocketAddress) (address : SocketAddress)
    {d d' : ChunkDirectory} (h : d.makingFault? = d'.makingFault?) :
    (bind network bound address d).1 = (bind network bound address d').1 := by
  unfold bind ChunkDirectory.make
  rw [h]
  cases d'.makingFault? with
  | some fault => rfl
  | none =>
    dsimp only
    split <;> rfl

/-- A start that is allowed fails as the socket does, or begins a session. -/
theorem start_cases (E : Environment σ) (bound : List SocketAddress) (w : MonitorSite σ)
    (h : w.monitor.receiving = false) :
    (∃ e directory, bind E.network bound w.monitor.config.address w.directory = (.error e, directory) ∧
      w.start E bound = (.error e, { w with
        monitor := w.monitor.withReport ((w.monitor.report.fail e.message).withState .stopped)
        directory := directory })) ∨
      ∃ address directory,
        bind E.network bound w.monitor.config.address w.directory = (.ok address, directory) ∧
        w.start E bound = (.ok (), { w with
          monitor := { w.monitor with
            localAddress := some address
            receiving := true
            session := .start w.monitor.config (w.monitor.report.withState .monitoring) }
          directory := directory }) := by
  rw [start, if_neg (by rw [h]; exact Bool.false_ne_true)]
  rcases bind E.network bound w.monitor.config.address w.directory with ⟨e | address, directory⟩
  · exact .inl ⟨e, directory, rfl, rfl⟩
  · exact .inr ⟨address, directory, rfl, rfl⟩

/-- A monitor that is not received, or keeps its address, goes on under a change of properties. -/
theorem update_eq {E : Environment σ} {bound : List SocketAddress}
    {w : MonitorSite σ} {changes : Properties} {config : StreamConfig}
    (h : w.monitor.config.merged changes = .ok config) :
    w.update E bound changes =
      if w.monitor.receiving && w.monitor.config.addressChanged config then
        match w.stop E with
        | (.error e, w) => (.error e, w)
        | (.ok _, w) => (w.withConfig config).start E bound
      else (.ok (), (w.withConfig config).happen (.configure config) E.now) := by
  unfold update
  rw [h]
  cases hreceiving : w.monitor.receiving with
  | true => rfl
  | false =>
    have hidle : ¬ (w.withConfig config).monitor.receiving = true := by
      simp only [withConfig, hreceiving, Bool.false_eq_true, not_false_eq_true]
    simp only [happen, if_neg hidle, Bool.not_false, if_true, Bool.false_and, Bool.false_eq_true,
      if_false]

end MonitorSite

end StreamCatalog
