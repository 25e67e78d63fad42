/-
# Calls that fail leave nothing behind

A call that is refused before anything of it is written changes neither the
connection nor the pending calls; at most it uses up a number. Where commands
are numbered, a call that fails later, because its time is up or its command
could not be written, gives up its place among the pending calls: they are
what they would be had it never been registered, and a reply that comes late
for it reaches nobody.

Key definitions: `StepOf`, `Action.IsOf`, `Untouched`, `Refused`, `Withdrawn`.
Key theorems: `Move.failure`, `Move.kept_of_caller`, `run_gone`, `run_failed`.
-/
import EfsControl.Proofs.Connector.Bystander
import EfsControl.Proofs.Connector.Deeds
import EfsControl.Proofs.Connector.Noise

namespace EfsControl

namespace Correlator

variable {κ : Type} {c : Correlator κ} {n : UInt32}

/-- Where no two pending calls have one number, none has the number of a call that is given up. -/
theorem cancel_gone (hd : (c.pending.map (·.seq)).Nodup) :
    ∀ p ∈ (c.cancel (some n)).1.pending, p.seq ≠ some n := by
  obtain ⟨hnone, hc⟩ | ⟨before, q, after, hl, hc⟩ := c.cancel_cases (some n)
  · intro p hp hs
    rw [hc] at hp
    exact hnone p hp (.inr hs)
  · obtain ⟨hpending, hmatch, -⟩ := locate_eq_some_iff.mp hl
    have hq : q.seq = some n := hmatch.resolve_left (Option.some_ne_none n)
    rw [hpending, List.map_append, List.map_cons, List.nodup_middle, ← List.map_append,
      List.nodup_cons] at hd
    intro p hp hs
    rw [hc] at hp
    exact hd.1 (List.mem_map.mpr ⟨p, hp, hs.trans hq.symm⟩)

end Correlator

namespace Connector

variable {setup : Setup} {s s' t : State} {a : Action} {notes ns us ms : List Note} {i id : Nat}
  {e : ExchangeError} {as : List Action}

/-! ### The steps of a call -/

/-- Whether it is the call that takes the step: it asks for the lock, or acts later. -/
def Action.IsOf (s : State) (id : Nat) : Action → Prop
  | .call _ _ => s.calls.length = id
  | a => a.caller? = some id

/-- A step of a run, from the state `t` before which `ns` was noted. -/
structure StepOf (setup : Setup) (as : List Action) (t : State) (ns : List Note) (a : Action)
    (t' : State) (ms : List Note) : Prop where
  within : ∃ bs, bs ++ [a] <+: as ∧ run setup {} bs = some (t, ns)
  step : step setup t a = some (t', ms)

/-- A step that leaves the connection as it was. With a connection to write to, a call that has got
the lock uses up a number. -/
structure Untouched (setup : Setup) (s : State) (a : Action) (s' : State) : Prop where
  correlator : s'.correlator = s.correlator
  writer : s'.writer = s.writer
  connected : s'.connected = s.connected
  resync : s'.resync = s.resync
  /-- Nothing is written. -/
  conns : s'.conns = s.conns
  nextSeq : s'.nextSeq =
    if a.caller?.isSome && s.writer.isSome && setup.config.sequenceNumbers then s.nextSeq + 1
    else s.nextSeq

/-- How a call comes to return an error. -/
inductive Failure (setup : Setup) (s s' : State) (i : Nat) : Action → ExchangeError → Prop
  /-- It finds the error in its slot, or nobody will answer. -/
  | found {elapsed : Duration} {e : ExchangeError}
    (he : e = .connectionLost ∨ ∃ code message, e = .daemon code message) :
    Failure setup s s' i (.receive i elapsed) e
  | refused {e : ExchangeError} (he : e = .notConnected ∨ ∃ x, e = .encode x)
    (hq : s.phase? i = some .queued) (hu : Untouched setup s (.begin i) s') :
    Failure setup s s' i (.begin i) e
  /-- It gives up its place among the pending calls. -/
  | withdrawn {a : Action} {e : ExchangeError} {p : Phase} {seq : Option UInt32} {conn : Nat}
    (he : (∃ limit, e = .timeout limit) ∨ ∃ cause, e = .io cause) (hp : s.phase? i = some p)
    (hl : p.link? = some (seq, conn)) (hc : s'.correlator = (s.correlator.cancel seq).1) :
    Failure setup s s' i a e
  | closed {limit : Duration} (hp : s.phase? i = some .closing) :
    Failure setup s s' i (.notify i) (.timeout limit)

/-- An error is returned in one of these ways. -/
theorem Move.failure (hm : Move setup s a s' ns) (ht : Told notes s)
    (hr : .returned i (.error e) ∈ ns) : Failure setup s s' i a e := by
  have hnews := hm.news
  cases hm with
  | refuse hc hp _ hw =>
    obtain ⟨rfl, he⟩ := returned_elim (l := []) hr
    cases he
    refine .refused (.inl rfl) (hp ▸ State.phase?_eq hc) ⟨rfl, rfl, rfl, rfl, rfl, ?_⟩
    rw [hw]
    rfl
  | reject hc hp _ hw he =>
    obtain ⟨rfl, herr⟩ := returned_elim (l := []) hr
    cases herr
    have hkind : e = .notConnected ∨ ∃ x, e = .encode x := by
      obtain ⟨x, hx, -⟩ | ⟨hx, -⟩ := he
      · exact .inr ⟨x, hx⟩
      · exact .inl hx
    refine .refused hkind (hp ▸ State.phase?_eq hc) ⟨rfl, rfl, rfl, rfl, rfl, ?_⟩
    change (takeSeq setup.config s).2.nextSeq = _
    rw [hw, takeSeq]
    cases setup.config.sequenceNumbers <;> rfl
  | writeFail cause hc hp =>
    obtain ⟨rfl, he⟩ := returned_elim (l := [_]) hr
    cases he
    exact .withdrawn (.inr ⟨cause, rfl⟩) (State.phase?_eq hc) (by rw [hp]; rfl) rfl
  | sever =>
    obtain ⟨rfl, he⟩ := returned_elim hr
    cases he
    exact .found (.inl rfl)
  | fail hc _ hs =>
    obtain ⟨rfl, he⟩ := returned_elim hr
    cases he
    rcases ht i _ (hs ▸ State.slot?_eq hc) with hlost | ⟨_, _, _, hok, -⟩
    · cases hlost
      exact .found (.inl rfl)
    · cases hok
  | answer _ _ _ =>
    obtain ⟨rfl, he⟩ := returned_elim hr
    unfold resultOf at he
    split at he
    · cases he
      exact .found (.inr ⟨_, _, rfl⟩)
    · cases he
  | @giveUp _ _ _ _ limit hc hp _ =>
    obtain ⟨rfl, he⟩ := returned_elim (l := [_]) hr
    cases he
    exact .withdrawn (.inl ⟨limit, rfl⟩) (State.phase?_eq hc) (by rw [hp]; rfl) rfl
  | @giveUpLate _ _ _ limit hc hp _ _ =>
    obtain ⟨rfl, he⟩ := returned_elim (l := [_]) hr
    cases he
    exact .withdrawn (.inl ⟨limit, rfl⟩) (State.phase?_eq hc) (by rw [hp]; rfl) rfl
  | notify hc hp _ =>
    obtain ⟨rfl, he⟩ := returned_elim (l := []) hr
    cases he
    exact .closed (hp ▸ State.phase?_eq hc)
  | hear | reply | disconnect => cases hnews (by simp) _ hr
  | _ => simp at hr

/-! ### Calls that are refused -/

/-- A call has been refused before anything of it was written: once it had the lock it has acted
once, and that step, like asking for the lock, has left the connection as it was. -/
structure Refused (setup : Setup) (as : List Action) (id : Nat) : Prop where
  once : ∃ before after, as = before ++ .begin id :: after ∧
    ∀ a ∈ before ++ after, a.caller? ≠ some id
  kept : ∀ {t ns a t' ms}, StepOf setup as t ns a t' ms → a.IsOf t id → Untouched setup t a t'

/-- The step of a call that asks for the lock, or one of its actions. -/
theorem Action.IsOf.cases (h : a.IsOf s id) :
    (∃ subcommand args, a = .call subcommand args) ∨ a.caller? = some id := by
  cases a with
  | call subcommand args => exact .inl ⟨subcommand, args, rfl⟩
  | _ => exact .inr h

/-- Asking for the lock leaves the connection as it was. -/
theorem Move.untouched_of_call {subcommand : String} {args : List Arg}
    (hm : Move setup s (.call subcommand args) s' ns) :
    Untouched setup s (.call subcommand args) s' := by
  cases hm
  exact ⟨rfl, rfl, rfl, rfl, rfl, rfl⟩

/-- A call that returns one of these errors has begun and ended at once. -/
theorem run_refused (h : run setup {} as = some (s, notes))
    (hr : .returned id (.error e) ∈ notes) (he : e = .notConnected ∨ ∃ x, e = .encode x) :
    Refused setup as id := by
  obtain ⟨bs, b, cs, t, ns, t', ms, ns', rfl, hbs, hstep, hmem, hcs⟩ := noted_at h hr
  have hm := step_move hstep
  obtain ⟨rfl, hq, hu⟩ : b = .begin id ∧ t.phase? id = some .queued ∧
      Untouched setup t (.begin id) t' := by
    cases hm.failure (run_sound hbs).told hmem with
    | found hf => rcases he with rfl | ⟨_, rfl⟩ <;> simp at hf
    | refused _ hq hu => exact ⟨rfl, hq, hu⟩
    | withdrawn hf => rcases he with rfl | ⟨_, rfl⟩ <;> simp at hf
    | closed => rcases he with he | ⟨_, he⟩ <;> cases he
  have hbefore : ∀ a ∈ bs, a.caller? ≠ some id := run_silent_before hbs fun p hp =>
    Option.some.inj (hp.symm.trans hq)
  have hafter : ∀ a ∈ cs, a.caller? ≠ some id := run_silent_after hcs (hm.returned_phase hmem) rfl
  refine ⟨⟨bs, cs, rfl, fun a ha => ?_⟩, fun {u us a u' xs} hu' hown => ?_⟩
  · rcases List.mem_append.mp ha with ha | ha
    · exact hbefore a ha
    · exact hafter a ha
  obtain ⟨ds, ⟨fs, hds⟩, hrun⟩ := hu'.within
  rcases hown.cases with ⟨subcommand, args, rfl⟩ | hown
  · exact (step_move hu'.step).untouched_of_call
  -- Its only action is the one that fails.
  · have hsplit : bs ++ .begin id :: cs = ds ++ a :: fs := by simpa using hds.symm
    obtain ⟨rfl, rfl, -⟩ := (List.append_cons_inj_of_notMem (fun ha => hbefore a ha hown)
      fun ha => hafter a ha hown).mp hsplit
    obtain ⟨rfl, rfl⟩ : t = u ∧ ns = us := by simpa [hbs] using hrun
    obtain ⟨rfl, rfl⟩ : t' = u' ∧ ms = xs := by simpa [hstep] using hu'.step
    exact hu

/-! ### Calls that have a number -/

/-- A call is not linked to a connection without a number, and does not close one. -/
def Phase.HasNumber (p : Phase) : Prop := p ≠ .closing ∧ ∀ conn, p.link? ≠ some (none, conn)

theorem Turn.hasNumber {o : Option Phase} {q : Phase} (h : Turn o (some q))
    (hp : ∀ p, o = some p → p.HasNumber) : q.HasNumber := by
  cases h with
  | stay => exact hp q rfl
  | come => exact ⟨nofun, nofun⟩
  | write => exact ⟨nofun, (hp _ rfl).2⟩
  | expire => exact ⟨nofun, (hp _ rfl).2⟩
  | @close conn => exact absurd rfl ((hp _ rfl).2 conn)
  | finish => exact ⟨nofun, nofun⟩
  | drop => exact ⟨nofun, nofun⟩

theorem Move.hasNumber (hm : Move setup s a s' ns) (hw : Wired s)
    (hcfg : setup.config.sequenceNumbers = true)
    (h : ∀ i p, s.phase? i = some p → p.HasNumber) :
    ∀ i p, s'.phase? i = some p → p.HasNumber := by
  have calm : Calm s s' → ∀ i p, s'.phase? i = some p → p.HasNumber := fun hc i q hq =>
    (hq ▸ hc i).hasNumber (h i)
  have one : ∀ {id : Nat} {q : Phase}, (∀ i, s'.phase? i = if i = id then some q else s.phase? i) →
      q.HasNumber → ∀ i p, s'.phase? i = some p → p.HasNumber := fun {id q} hj hq i p hp => by
    rw [hj] at hp
    split at hp
    · cases hp
      exact hq
    · exact h i p hp
  cases hm.effect hw with
  | calm hc | cancel _ _ _ hc | close hc | «open» _ hc | hear hc | reply hc => exact calm hc
  | register _ _ _ _ hj =>
    refine one hj ⟨by simp, fun conn hl => ?_⟩
    simp [Phase.link?, takeSeq, hcfg] at hl
  | send hq hj => exact one hj ⟨by simp, (h _ _ hq).2⟩

theorem run_hasNumber (h : run setup {} as = some (s, notes))
    (hcfg : setup.config.sequenceNumbers = true) :
    ∀ i p, s.phase? i = some p → p.HasNumber :=
  (sound_induction (P := fun _ s => ∀ i p, s.phase? i = some p → p.HasNumber)
    (fun i p hp => by simp [State.phase?] at hp)
    (fun hs h hm => hm.hasNumber hs.wired hcfg h) h).2

/-- Only a call without a number closes the connection. -/
theorem Move.kept_of_caller (hm : Move setup s a s' ns) (ha : a.caller? = some i)
    (hn : ∀ p, s.phase? i = some p → p.HasNumber) :
    s'.writer = s.writer ∧ s'.connected = s.connected ∧ s'.resync = s.resync := by
  cases hm with
  | @giveUpLate _ conn _ _ hc hp | @close _ conn _ _ _ hc hp =>
    cases ha
    exact absurd rfl ((hn _ (hp ▸ State.phase?_eq hc)).2 conn)
  | notify hc hp =>
    cases ha
    exact absurd rfl (hn _ (hp ▸ State.phase?_eq hc)).1
  | refuse | reject | register | write | send | writeFail | sever | fail | answer | expire | giveUp
  | drop => exact ⟨rfl, rfl, rfl⟩
  | _ => cases ha

/-! ### Calls that give up their place -/

/-- A call with the number `n` has taken back its place among the pending calls. -/
structure Withdrawn (setup : Setup) (as : List Action) (s : State) (notes : List Note) (id : Nat)
    (e : ExchangeError) (n : UInt32) : Prop where
  registered : ∃ conn command, .registered id (some n) conn command ∈ notes
  /-- The pending calls are what the deeds of the run have made of them. -/
  played : s.correlator = Correlator.play {} (deeds setup {} as)
  /-- Without the deeds of the call they would be the same. -/
  unregistered : s.correlator =
    Correlator.play {} ((deeds setup {} as).filter fun d => d.caller? ≠ some id)
  kept : ∀ {t ns a t' ms}, StepOf setup as t ns a t' ms → a.IsOf t id →
    t'.writer = t.writer ∧ t'.connected = t.connected ∧ t'.resync = t.resync
  /-- A reply with the number of the call that is read after its end reaches nobody. -/
  late : ∀ {t ns a t' ms conn raw r}, StepOf setup as t ns a t' ms →
    .returned id (.error e) ∈ ns → .line conn raw ∈ ms → parseLine raw true = .ok (.reply r) →
    r.seq = some n →
    .routed conn r .unmatched ∈ ms ∧ t'.correlator = t.correlator ∧ t'.calls = t.calls

/-- While there are fewer than 2³² calls, the number of a call that has given up its place is never
pending again. -/
theorem run_gone (h : run setup {} as = some (s, notes))
    (hcfg : setup.config.sequenceNumbers = true) (hlt : s.calls.length < 2 ^ 32)
    (hr : .returned id (.error e) ∈ notes)
    (he : (∃ limit, e = .timeout limit) ∨ ∃ cause, e = .io cause) :
    ∃ x ∈ registrations notes, x.id = id ∧ ∀ p ∈ s.correlator.pending, p.seq ≠ x.seq := by
  induction as using List.reverseRecOn generalizing s notes with
  | nil =>
    cases h
    cases hr
  | append_singleton as a ih =>
    obtain ⟨t, ns₁, ns₂, ht, hstep, rfl⟩ := run_snoc.mp h
    have hm := step_move hstep
    have hltt : t.calls.length < 2 ^ 32 := Nat.lt_of_le_of_lt hm.calls_le hlt
    obtain ⟨hs, ho⟩ := run_inOrder hcfg ht
    rcases List.mem_append.mp hr with hr | hr
    -- Whoever is registered after the end of the call gets another number.
    · obtain ⟨x, hx, hid, hgone⟩ := ih ht hltt hr
      refine ⟨x, by simp [hx], hid, ?_⟩
      refine hm.pending_forall (P := fun seq _ => seq ≠ x.seq) hs.wired hgone fun _ _ _ _ => ?_
      rw [takeSeq, if_pos hcfg]
      exact Ne.symm (run_next_fresh hcfg ht hltt x hx)
    -- At its end the call takes its number away, and no other pending call has it.
    · obtain ⟨-, hn, -⟩ := ho hltt
      cases hm.failure hs.told hr with
      | found hf => rcases he with ⟨_, rfl⟩ | ⟨_, rfl⟩ <;> simp at hf
      | refused hf => rcases he with ⟨_, rfl⟩ | ⟨_, rfl⟩ <;> simp at hf
      | @withdrawn _ _ p seq conn _ hp hl hc =>
        obtain ⟨command, hregistered⟩ := hs.history.registered_of_link hp hl
        refine ⟨⟨id, seq, conn, command⟩, by simp [hregistered], rfl, ?_⟩
        cases seq with
        | none => exact absurd hl ((run_hasNumber ht hcfg id p hp).2 conn)
        | some m =>
          rw [hc]
          exact Correlator.cancel_gone hn.distinct
      | closed hp => exact absurd rfl (run_hasNumber ht hcfg id _ hp).1

/-- What was noted before a step of a run is noted in the run, and the calls of that time are among
those of its end. -/
theorem StepOf.before {t' : State} (h : run setup {} as = some (s, notes))
    (ht : StepOf setup as t us a t' ms) :
    (∀ n ∈ us, n ∈ notes) ∧ t.calls.length ≤ s.calls.length := by
  obtain ⟨bs, ⟨cs, rfl⟩, hbs⟩ := ht.within
  obtain ⟨u, ns₁, ns₂, h₁, h₂, rfl⟩ := run_append.mp h
  obtain ⟨v, ms₁, ms₂, hv, hstep, rfl⟩ := run_snoc.mp h₁
  obtain ⟨rfl, rfl⟩ : t = v ∧ us = ms₁ := by simpa [hbs] using hv
  exact ⟨fun n hn => by simp [hn], Nat.le_trans (step_move hstep).calls_le (run_calls_le h₂)⟩

/-- A reply that is read while no pending call has its number reaches nobody. -/
theorem Move.unmatched {conn : Nat} {raw : String} {r : Reply} (hm : Move setup s a s' ns)
    (hline : .line conn raw ∈ ns)
    (hparse : parseLine raw setup.config.sequenceNumbers = .ok (.reply r))
    (hseq : r.seq.isSome = true) (hp : ∀ p ∈ s.correlator.pending, p.seq ≠ r.seq) :
    .routed conn r .unmatched ∈ ns ∧ s'.correlator = s.correlator ∧ s'.calls = s.calls := by
  cases hm with
  | hear _ hr hn =>
    rcases List.mem_cons.mp hline with hline | hline
    · cases hline
      exact absurd hparse (hr r)
    · obtain ⟨_, hline⟩ | ⟨_, hline⟩ := hn _ hline <;> cases hline
  | @reply conn' rest raw' r' _ hr =>
    obtain ⟨entries, hns⟩ := routeReply_notes
      (s.onConn conn' fun c => { c with inbox := rest }) conn' raw' r'
    simp only [hns, List.mem_cons, reduceCtorEq, List.mem_map, and_false, exists_false, or_false,
      Note.line.injEq] at hline
    obtain ⟨rfl, rfl⟩ := hline
    obtain rfl : r' = r := by simpa [hr] using hparse
    have hroute : (routeReply (s.onConn conn fun c => { c with inbox := rest }) conn raw r').1 =
        s.onConn conn fun c => { c with inbox := rest } := routeReply_unmatched raw hseq hp
    have hdispatch : (s.onConn conn fun c => { c with inbox := rest }).correlator.dispatch r' =
        (s.correlator, .unmatched) := Correlator.dispatch_of_other hseq hp
    rw [hroute, hns, hdispatch]
    exact ⟨by simp, rfl, rfl⟩
  | @disconnect final => cases final <;> simp [removeConn] at hline
  | _ => simp at hline

/-- What the notes tell of a deed tells whether it is one of the call with the number `n`. -/
theorem Noted.owned {d : Correlator.Deed Nat} {begun : List Nat} {x : Registration} {n : UInt32}
    (hd : Noted notes d) (hh : History notes s) (hc : Counted notes s begun)
    (hx : x ∈ registrations notes) (hn : x.seq = some n) : d.Numbered ∧ d.Owned x.id n := by
  have caller : ∀ {seq : Option UInt32} {id : Nat},
      (∃ y ∈ registrations notes, y.id = id ∧ y.seq = seq) →
        seq.isSome = true ∧ (id = x.id ↔ seq = some n) := by
    rintro _ _ ⟨y, hy, rfl, rfl⟩
    obtain ⟨m, hm, -⟩ := hc.taken y hy
    refine ⟨by rw [hm]; rfl, fun hid => ?_, fun hseq => ?_⟩
    · rw [hh.eq_of_id hy hx hid, hn]
    · have hsame := List.inj_on_of_nodup_map hc.distinct hy hx (hseq.trans hn.symm)
      exact congrArg Registration.id hsame
  cases d with
  | register seq id | cancel seq id => exact caller hd
  | dispatch reply => exact ⟨hd, trivial⟩
  | opening | closing => exact ⟨trivial, trivial⟩

/-- Of the deeds of the run only those of the call concern its number. -/
theorem run_withdrawn (h : run setup {} as = some (s, notes))
    (hcfg : setup.config.sequenceNumbers = true) (hlt : s.calls.length < 2 ^ 32)
    (hr : .returned id (.error e) ∈ notes)
    (he : (∃ limit, e = .timeout limit) ∨ ∃ cause, e = .io cause) :
    ∃ n, Withdrawn setup as s notes id e n := by
  obtain ⟨hs, ho⟩ := run_inOrder hcfg h
  obtain ⟨⟨begun, hc⟩, -, -⟩ := ho hlt
  obtain ⟨x, hx, rfl, hgone⟩ := run_gone h hcfg hlt hr he
  obtain ⟨n, hn, -⟩ := hc.taken x hx
  have hplay := run_deeds h
  have howned : ∀ d ∈ deeds setup {} as, d.Numbered ∧ d.Owned x.id n := fun d hd =>
    (run_noted h hcfg d hd).owned hs.history hc hx hn
  refine ⟨n, ⟨x.conn, x.command, hn ▸ mem_registrations.mp hx⟩, hplay, ?_, fun hstep hown => ?_,
    fun {t us a t' ms conn raw r} hstep hret hline hparse hnum => ?_⟩
  · calc s.correlator
      _ = s.correlator.without n := (Correlator.without_eq_self fun p hp => hn ▸ hgone p hp).symm
      _ = (Correlator.play {} (deeds setup {} as)).without n := by rw [hplay]
      _ = Correlator.play {} ((deeds setup {} as).filter fun d => d.caller? ≠ some x.id) :=
        Correlator.play_without howned {}
  · obtain ⟨bs, -, hbs⟩ := hstep.within
    have hm := step_move hstep.step
    rcases hown.cases with ⟨subcommand, args, rfl⟩ | hown
    · have hu := hm.untouched_of_call
      exact ⟨hu.writer, hu.connected, hu.resync⟩
    · exact hm.kept_of_caller hown (run_hasNumber hbs hcfg x.id)
  · obtain ⟨bs, -, hbs⟩ := hstep.within
    obtain ⟨hnotes, hcalls⟩ := hstep.before h
    obtain ⟨y, hy, hid, hnone⟩ := run_gone hbs hcfg (Nat.lt_of_le_of_lt hcalls hlt) hret he
    have hsame : y = x := hs.history.eq_of_id
      (mem_registrations.mpr (hnotes _ (mem_registrations.mp hy))) hx hid
    have hpending : ∀ p ∈ t.correlator.pending, p.seq ≠ r.seq := fun p hp => by
      rw [hnum, ← hn, ← hsame]
      exact hnone p hp
    exact (step_move hstep.step).unmatched hline (hcfg ▸ hparse) (by rw [hnum]; rfl) hpending

/-- **A call that fails leaves the connection as it was.** A call that finds no connection or whose
command cannot be encoded has acted once after it got the lock. Neither that step nor asking for the
lock has written anything or changed the pending calls, the writing side or the flag; it has used up
a number if there was a connection to write to and commands are numbered. Where commands are
numbered and there are fewer than 2³² calls, a call whose time is up or whose command could not be
written in full has left the pending calls as they would be had it never been registered, has
changed neither the writing side nor the flag and has not asked the worker to start over; and every
reply with its number that is read later reaches nobody. -/
theorem run_failed (h : run setup {} as = some (s, notes))
    (hr : .returned id (.error e) ∈ notes) :
    ((e = .notConnected ∨ ∃ x, e = .encode x) → Refused setup as id) ∧
    (setup.config.sequenceNumbers = true → s.calls.length < 2 ^ 32 →
      ((∃ limit, e = .timeout limit) ∨ ∃ cause, e = .io cause) →
      ∃ n, Withdrawn setup as s notes id e n) :=
  ⟨run_refused h hr, fun hcfg hlt => run_withdrawn h hcfg hlt hr⟩

/-- One call comes before there is a connection, one has a command that cannot be written, and one
goes unanswered until it is too late. -/
def failures : List Action :=
  [.call "status" [], .begin 0, .start, .connect, .install, .open, .call "lock" [.text "a\nb"],
    .begin 1, .call "status" [], .begin 2, .write 2 100, .timeout 2, .giveUp 2,
    .deliver 0 (Utf8.ofString "200 2 late" ++ [0]), .readLine]

/-- What the three calls return. -/
def failureResults : List (Nat × ExchangeResult) :=
  [(0, .error .notConnected), (1, .error (.encode (.forbiddenCharacter 0 '\n'))),
    (2, .error (.timeout (.ofSecs 30)))]

/-- The first two calls are refused, and the third has left nothing behind. -/
theorem run_failed_failures : ∃ s notes,
    run { config := {} } {} failures = some (s, notes) ∧ outcomes notes = failureResults ∧
    Refused { config := {} } failures 0 ∧ Refused { config := {} } failures 1 ∧
    ∃ n, Withdrawn { config := {} } failures s notes 2 (.timeout (.ofSecs 30)) n := by
  have hrun : ((run { config := {} } {} failures).map fun x =>
      (outcomes x.2, decide (x.1.calls.length < 2 ^ 32))) = some (failureResults, true) := by
    decide +kernel
  obtain ⟨⟨s, notes⟩, hx, hb⟩ := Option.map_eq_some_iff.mp hrun
  obtain ⟨hout, hlt⟩ := Prod.mk.inj hb
  have returned : ∀ x ∈ failureResults, .returned x.1 x.2 ∈ notes := fun x hm =>
    mem_outcomes.mp (hout ▸ hm)
  have hfirst := (run_failed hx (returned (0, .error .notConnected) (by decide))).1 (.inl rfl)
  have hsecond := (run_failed hx (returned (1, .error (.encode (.forbiddenCharacter 0 '\n')))
    (by decide))).1 (.inr ⟨_, rfl⟩)
  have hthird := (run_failed hx (returned (2, .error (.timeout (.ofSecs 30))) (by decide))).2 rfl
    (of_decide_eq_true hlt) (.inl ⟨_, rfl⟩)
  exact ⟨s, notes, hx, hout, hfirst, hsecond, hthird⟩

end Connector
end EfsControl
