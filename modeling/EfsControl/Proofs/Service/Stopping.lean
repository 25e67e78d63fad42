/-
# Stopping the service

The service ends because its socket cannot be put in place or because it is
asked to stop, at whatever moment and however often. Either way its worker has
stopped before, so nothing of a connection is left; whoever asks for something
afterwards is refused. A socket that was put in place is taken away again.

Key definitions: `Stage`.
Key theorems: `Files.at?_removeSocket`, `run_connector`, `run_stage`, `run_ended`.
-/
import EfsControl.Proofs.Connector.Stopped
import EfsControl.Service.Lifecycle

namespace EfsControl

namespace Files

variable {fs placed : Files} {path : String}

/-- What is taken away is not there any more, unless it is a directory that is always there. -/
theorem kind?_remove {way : List String} (h : way ≠ [] ∧ way ≠ [rootName]) :
    (fs.remove way).kind? way = none := by
  have hne : (decide (way = []) || decide (way = [rootName])) = false := by simp [h]
  rw [kind?, hne]
  simp only [remove, Bool.false_eq_true, if_false]
  rw [List.lookup_eq_none_iff]
  intro e he
  obtain ⟨-, hway⟩ := List.mem_filter.mp he
  simpa using fun heq => (by simpa using hway : e.1 ≠ way) heq.symm

/-- A socket that was put in place is not there any more when it has been taken away. -/
theorem at?_removeSocket (h : fs.placeSocket path = (placed, none)) :
    (placed.removeSocket path).at? path = none := by
  by_cases hp : path = ""
  · simp [at?, hp]
  · rw [removeSocket, if_neg hp, at?, if_neg hp]
    refine kind?_remove (not_or.mp fun hway => ?_)
    -- What is always there cannot be cleared.
    have hdir : fs.at? path = some .directory := by
      rw [at?, if_neg hp, kind?, if_pos (by simpa using hway)]
    simp [placeSocket, clear, hdir] at h

end Files

namespace Service

variable {setup : Setup} {files : Files} {s s' t : State} {notes ns : List Connector.Note}
  {as bs : List Action} {a : Action} {cause : Option String}

/-! ### The connector of a service -/

/-- What the service does is a run of its connector. -/
theorem step_connector (h : step setup s a = some (s', ns)) :
    ∃ cs, Connector.run setup.connector s.connector cs = some (s'.connector, ns) := by
  have signalled : ∀ {p : Phase} {fs : Files},
      (State.signal setup { s with phase := p, files := fs }).map (·, []) = some (s', ns) →
      Connector.run setup.connector s.connector [.signal] = some (s'.connector, ns) := by
    rintro p fs ⟨⟩
    rfl
  cases a with
  | connector c =>
    simp only [step] at h
    split at h
    · obtain ⟨⟨u, ms⟩, hu, he⟩ := Option.map_eq_some_iff.mp h
      cases he
      exact ⟨[c], Connector.run_cons.mpr ⟨u, ms, [], hu, rfl, (List.append_nil ms).symm⟩⟩
    · cases h
  | prepare =>
    simp only [step] at h
    split at h
    · split at h
      · cases h
        exact ⟨[], rfl⟩
      · exact ⟨[.signal], signalled h⟩
    · cases h
  | requestStop => exact ⟨[.signal], signalled h⟩
  | close =>
    simp only [step] at h
    split at h
    · cases h
      exact ⟨[], rfl⟩
    · cases h
  | finish =>
    simp only [step] at h
    split at h
    · split at h
      · cases h
        exact ⟨[], rfl⟩
      · cases h
    · cases h

/-- A run of the service begins with its first step. -/
theorem run_cons : run setup s (a :: as) = some (s', ns) ↔
    ∃ t ns₁ ns₂, step setup s a = some (t, ns₁) ∧ run setup t as = some (s', ns₂) ∧
      ns = ns₁ ++ ns₂ := by
  constructor
  · intro h
    obtain ⟨⟨t, ns₁⟩, ht, h⟩ := Option.bind_eq_some_iff.mp h
    obtain ⟨⟨u, ns₂⟩, hu, h⟩ := Option.bind_eq_some_iff.mp h
    cases h
    exact ⟨t, ns₁, ns₂, ht, hu, rfl⟩
  · rintro ⟨t, ns₁, ns₂, ht, hu, rfl⟩
    exact Option.bind_eq_some_iff.mpr ⟨_, ht, Option.bind_eq_some_iff.mpr ⟨_, hu, rfl⟩⟩

theorem run_connector (h : run setup s as = some (s', ns)) :
    ∃ cs, Connector.run setup.connector s.connector cs = some (s'.connector, ns) := by
  induction as generalizing s ns with
  | nil =>
    cases h
    exact ⟨[], rfl⟩
  | cons a as ih =>
    obtain ⟨t, ns₁, ns₂, hstep, hrun, rfl⟩ := run_cons.mp h
    obtain ⟨cs, hcs⟩ := step_connector hstep
    obtain ⟨ds, hds⟩ := ih hrun
    exact ⟨cs ++ ds, Connector.run_append.mpr ⟨_, _, _, hcs, hds, rfl⟩⟩

/-! ### From the beginning to the end -/

/-- How far a service is that found `files` when it started, and what has become of its socket. -/
inductive Stage (setup : Setup) (files : Files) (s : State) : Prop
  | preparing (hp : s.phase = .preparing) (hf : s.files = files)
  | serving (hp : s.phase = .serving)
    (hf : files.placeSocket setup.config.service.socketPath = (s.files, none))
  | closing {cause : Option String} (hp : s.phase = .closing cause)
    (hc : (files.placeSocket setup.config.service.socketPath).2 = cause)
    (hf : cause = none → s.files.at? setup.config.service.socketPath = none)
  | ended {cause : Option String} (hp : s.phase = .ended cause)
    (hc : (files.placeSocket setup.config.service.socketPath).2 = cause)
    (hf : cause = none → s.files.at? setup.config.service.socketPath = none)
    (hk : s.connector.worker = .stopped)

/-- The connector may go on, but its worker does not start again. -/
theorem Stage.onConnector (h : Stage setup files s) (c : Connector.State)
    (hc : s.connector.worker = .stopped → c.worker = .stopped) :
    Stage setup files { s with connector := c } := by
  cases h with
  | preparing hp hf => exact .preparing hp hf
  | serving hp hf => exact .serving hp hf
  | closing hp hcause hf => exact .closing hp hcause hf
  | ended hp hcause hf hk => exact .ended hp hcause hf (hc hk)

theorem Stage.step (h : Stage setup files s) (hs : step setup s a = some (s', ns)) :
    Stage setup files s' := by
  cases a with
  | connector c =>
    simp only [Service.step] at hs
    split at hs
    · obtain ⟨⟨u, ms⟩, hu, he⟩ := Option.map_eq_some_iff.mp hs
      cases he
      exact h.onConnector u (Connector.step_move hu).stopped
    · cases hs
  | prepare =>
    simp only [Service.step] at hs
    split at hs
    · rename_i hp
      have hfiles : s.files = files := by cases h <;> simp_all
      rw [hfiles] at hs
      split at hs
      · rename_i placed hplace
        cases hs
        exact .serving rfl hplace
      · rename_i placed why hplace
        cases hs
        exact .closing rfl (congrArg Prod.snd hplace) nofun
    · cases hs
  | requestStop =>
    cases hs
    exact h.onConnector _ id
  | close =>
    simp only [Service.step] at hs
    split at hs
    · rename_i hp
      have hplace : files.placeSocket setup.config.service.socketPath = (s.files, none) := by
        cases h <;> simp_all
      cases hs
      exact .closing rfl (congrArg Prod.snd hplace) fun _ => Files.at?_removeSocket hplace
    · cases hs
  | finish =>
    simp only [Service.step] at hs
    split at hs
    · rename_i cause hp
      split at hs
      · rename_i hk
        cases hs
        cases h with
        | closing hp' hc hf =>
          cases hp.symm.trans hp'
          exact .ended rfl hc hf hk
        | preparing hp' | serving hp' | ended hp' => cases hp.symm.trans hp'
      · cases hs
    · cases hs

theorem Stage.run (h : Stage setup files s) (hr : run setup s as = some (s', ns)) :
    Stage setup files s' := by
  induction as generalizing s ns with
  | nil =>
    cases hr
    exact h
  | cons a as ih =>
    obtain ⟨t, _, _, hstep, hrun, -⟩ := run_cons.mp hr
    exact ih (h.step hstep) hrun

theorem run_stage (h : run setup { files := files } as = some (s, notes)) : Stage setup files s :=
  Stage.run (.preparing rfl rfl) h

/-! ### Afterwards -/

/-- A call that gets the lock when the worker has stopped is refused, and writes nothing. -/
theorem step_begin_refused (h : Connector.Shut s.connector) {id : Nat} {call : Connector.Call}
    (hc : s.connector.calls[id]? = some call) (hp : call.phase = .queued)
    (hl : s.connector.lock.holder = some (.call id)) :
    ∃ t, step setup s (.connector (.begin id)) = some (t, [.returned id (.error .notConnected)]) ∧
      t.connector.conns = s.connector.conns := by
  refine ⟨{ s with connector := (s.connector.finish id (.error .notConnected)).1 }, ?_, rfl⟩
  simp only [step, isOwn, if_true, Connector.step_begin_shut h hc hp hl]
  rfl

/-- **Stopping leaves nothing running.** When the service has ended, because it was asked to stop or
because its socket could not be put in place, its connector is not connected, nobody may write and
no call is pending; every call whose command was written has returned an answer that the daemon gave
it or a failure, unless its caller went away. If the socket was put in place, it is gone. Whatever
happens afterwards, the service has ended, nothing is written, and a call that gets the lock is
refused at once; no call that had not begun before returns anything but `-1`. -/
theorem run_ended (h : run setup { files := files } as = some (s, notes))
    (hp : s.phase = .ended cause) :
    Connector.Shut s.connector ∧
    (∀ id conn, .sent id conn ∈ notes → s.connector.phase? id = some .dropped ∨
      ∃ result, s.connector.phase? id = some (.finished result) ∧ .returned id result ∈ notes ∧
        Connector.Resolved notes id result) ∧
    (files.placeSocket setup.config.service.socketPath).2 = cause ∧
    (cause = none → s.files.at? setup.config.service.socketPath = none) ∧
    ∀ bs t ns, run setup s bs = some (t, ns) →
      Connector.Shut t.connector ∧ (∀ n ∈ ns, n.isInk = false) ∧
      (∀ conn, t.connector.output conn = s.connector.output conn) ∧
      (∀ id call, t.connector.calls[id]? = some call → call.phase = .queued →
        t.connector.lock.holder = some (.call id) →
        ∃ u, step setup t (.connector (.begin id)) =
            some (u, [.returned id (.error .notConnected)]) ∧
          u.connector.conns = t.connector.conns) ∧
      ∀ id, (∀ p, s.connector.phase? id = some p → p = .queued) →
        ∀ result kind, .returned id result ∈ ns → (Outcome.decode kind result).code = -1 := by
  obtain ⟨cs, hcs⟩ := run_connector h
  obtain ⟨hk, hplaced, hgone⟩ : s.connector.worker = .stopped ∧
      (files.placeSocket setup.config.service.socketPath).2 = cause ∧
      (cause = none → s.files.at? setup.config.service.socketPath = none) := by
    cases run_stage h with
    | ended hp' hc hf hk =>
      cases hp.symm.trans hp'
      exact ⟨hk, hc, hf⟩
    | preparing hp' | serving hp' | closing hp' => cases hp.symm.trans hp'
  obtain ⟨hshut, hsent⟩ := Connector.run_shut hcs hk
  refine ⟨hshut, hsent, hplaced, hgone, fun bs t ns hbs => ?_⟩
  obtain ⟨ds, hds⟩ := run_connector hbs
  obtain ⟨hshut', hink, hout, hrefused⟩ := Connector.run_shut_from hcs hk hds
  refine ⟨hshut', hink, hout, fun id call hc hq hl => step_begin_refused hshut' hc hq hl, ?_⟩
  intro id hbefore result kind hr
  rw [(hrefused id hbefore).2 result hr]
  rfl

/-- The service is asked to stop twice while a call waits for its reply, and another call asks for
the lock in the meantime. -/
def stoppedExchange : List Action :=
  [.prepare, .connector .start, .connector .connect, .connector .install, .connector .open,
    .connector (.call "status" []), .connector (.begin 0), .connector (.write 0 100),
    .connector (.call "lock" [.text "/a"]), .requestStop, .requestStop, .close, .connector .stop,
    .connector (.receive 0 ⟨0⟩), .connector (.begin 1), .connector .disconnect, .finish]

/-- The first call has failed and the socket is gone when the service has ended. -/
theorem run_ended_exchange : ∃ s notes,
    run {} { files := {} } stoppedExchange = some (s, notes) ∧ s.phase = .ended none ∧
    s.connector.connected = false ∧ .sent 0 0 ∈ notes ∧
    (s.connector.phase? 0 = some .dropped ∨
      ∃ result, s.connector.phase? 0 = some (.finished result) ∧ .returned 0 result ∈ notes) ∧
    s.files.at? ({} : AppConfig).service.socketPath = none := by
  have hrun : ((run {} { files := {} } stoppedExchange).map fun x =>
        decide (x.1.phase = .ended none ∧ (0, 0) ∈ Connector.commands x.2)) = some true := by
    decide +kernel
  obtain ⟨⟨s, notes⟩, hx, hd⟩ := Option.map_eq_some_iff.mp hrun
  obtain ⟨hp, hcommand⟩ := of_decide_eq_true hd
  have hsent : .sent 0 0 ∈ notes := Connector.mem_commands.mp hcommand
  obtain ⟨hshut, hall, -, hgone, -⟩ := run_ended hx hp
  refine ⟨s, notes, hx, hp, hshut.disconnected, hsent, ?_, hgone rfl⟩
  rcases hall 0 0 hsent with hdropped | ⟨result, hf, hr, -⟩
  · exact .inl hdropped
  · exact .inr ⟨result, hf, hr⟩

end Service
end EfsControl
