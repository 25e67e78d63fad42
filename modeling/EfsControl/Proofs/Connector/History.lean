/-
# What has been noted and how far the calls are

The notes of a run tell the past of every call: a call that is linked to a
connection is the last that was registered, each call is registered once at
most, and commands are written in full in the order of their registrations.

Key definitions: `History`, `State.Past`, `Settled`.
Key theorems: `Move.history`, `Move.past`, `Move.settled`, `Settled.fresh`.
-/
import EfsControl.Proofs.Connector.Traffic

namespace EfsControl
namespace Connector

variable {setup : Setup} {s s' : State} {notes ns : List Note}

/-- What a run has noted, in the state it has come to. -/
structure History (notes : List Note) (s : State) : Prop where
  last : ∀ i p l, s.phase? i = some p → p.link? = some l →
    ∃ command, (registrations notes).getLast? = some ⟨i, l.1, l.2, command⟩
  sent : ∀ i p l, s.phase? i = some p → p.link? = some l → p.isPastWriting = true →
    (i, l.2) ∈ commands notes
  begun : ∀ x ∈ registrations notes, ∃ p, s.phase? x.id = some p ∧ p ≠ .queued
  past : ∀ x ∈ commands notes, ∃ p, s.phase? x.1 = some p ∧ p.isPastWriting = true
  nodup : ((registrations notes).map (·.id)).Nodup
  order : (commands notes).Sublist ((registrations notes).map fun x => (x.id, x.conn))

/-! ### Turns and the past -/

/-- A command that has been written in full by now was so before. -/
theorem Turn.link_past {o : Option Phase} {q : Phase} {l : Option UInt32 × Nat}
    (h : Turn o (some q))
    (hl : q.link? = some l) (hq : q.isPastWriting = true) :
    ∃ p, o = some p ∧ p.link? = some l ∧ p.isPastWriting = true := by
  cases h with
  | stay => exact ⟨q, rfl, hl, hq⟩
  | expire => exact ⟨_, rfl, hl, rfl⟩
  | write => cases hq
  | come => cases hq
  | close => cases hl
  | finish => cases hl
  | drop => cases hl

/-- A call that has begun stays so. -/
theorem Turn.begun {o : Option Phase} {p : Phase} (h : Turn (some p) o) (hp : p ≠ .queued) :
    ∃ q, o = some q ∧ q ≠ .queued := by
  cases h with
  | stay => exact ⟨p, rfl, hp⟩
  | write => exact ⟨_, rfl, nofun⟩
  | expire => exact ⟨_, rfl, nofun⟩
  | close => exact ⟨_, rfl, nofun⟩
  | finish => exact ⟨_, rfl, nofun⟩
  | drop => exact ⟨_, rfl, nofun⟩

/-- A call that is past writing its command stays so. -/
theorem Turn.past {o : Option Phase} {p : Phase} (h : Turn (some p) o)
    (hp : p.isPastWriting = true) :
    ∃ q, o = some q ∧ q.isPastWriting = true := by
  cases h with
  | stay => exact ⟨p, rfl, hp⟩
  | write => cases hp
  | expire => exact ⟨_, rfl, rfl⟩
  | close => exact ⟨_, rfl, rfl⟩
  | finish => exact ⟨_, rfl, rfl⟩
  | drop => exact ⟨_, rfl, rfl⟩

/-- A call that has begun has begun after every move too. -/
theorem Move.begun {a : Action} (hm : Move setup s a s' ns) (hw : Wired s) {i : Nat} {p : Phase}
    (hp : s.phase? i = some p) (hne : p ≠ .queued) : ∃ q, s'.phase? i = some q ∧ q ≠ .queued := by
  have one : ∀ {id : Nat} {q : Phase}, (∀ j, s'.phase? j = if j = id then some q else s.phase? j) →
      q ≠ .queued → ∃ q, s'.phase? i = some q ∧ q ≠ .queued := fun {id q} hj hq => by
    rw [hj]
    split
    · exact ⟨q, rfl, hq⟩
    · exact ⟨p, hp, hne⟩
  cases hm.effect hw with
  | calm hc _ _ _ => exact (hp ▸ hc i).begun hne
  | cancel _ _ _ hc _ _ _ => exact (hp ▸ hc i).begun hne
  | close hc _ _ _ => exact (hp ▸ hc i).begun hne
  | «open» _ hc _ _ _ _ => exact (hp ▸ hc i).begun hne
  | register _ _ _ _ hj _ _ _ => exact one hj nofun
  | send _ hj _ _ => exact one hj nofun
  | hear hc _ _ _ _ _ => exact (hp ▸ hc i).begun hne
  | reply hc _ _ _ _ _ => exact (hp ▸ hc i).begun hne

/-- A move registers one call at most, with its request encoded. -/
theorem Move.registers {a : Action} (hm : Move setup s a s' ns) (hw : Wired s) :
    registrations ns = [] ∨ ∃ id conn call command,
      registrations ns = [⟨id, (takeSeq setup.config s).1, conn, command⟩] ∧
      s.calls[id]? = some call ∧ encode (takeSeq setup.config s).1 setup.config.commandPrefix
        call.subcommand call.args = .ok command := by
  cases hm.effect hw with
  | calm _ _ _ hn => exact .inl hn.registrations_eq
  | cancel _ _ _ _ _ _ hn => exact .inl hn.registrations_eq
  | close _ _ _ hn => exact .inl hn.registrations_eq
  | «open» _ _ _ _ _ hn => exact .inl hn.registrations_eq
  | register hc he _ _ _ _ _ _ => exact .inr ⟨_, _, _, _, rfl, hc, he⟩
  | send => exact .inl rfl
  | hear _ _ _ _ _ hn => exact .inl hn.registrations_eq
  | reply _ _ _ _ _ hn => exact .inl hn.registrations_eq

namespace History

theorem init : History [] {} where
  last i p l hp := by simp [State.phase?] at hp
  sent i p l hp := by simp [State.phase?] at hp
  begun := by simp [registrations]
  past := by simp [commands]
  nodup := by simp [registrations]
  order := by simp [commands]

theorem calm (h : History notes s) (hp : Calm s s') (hr : registrations ns = [])
    (hc : commands ns = []) : History (notes ++ ns) s' := by
  have er : registrations (notes ++ ns) = registrations notes := by simp [hr]
  have ec : commands (notes ++ ns) = commands notes := by simp [hc]
  refine ⟨fun i q l hq hl => ?_, fun i q l hq hl hpast => ?_, fun x hx => ?_, fun x hx => ?_,
    er ▸ h.nodup, er ▸ ec ▸ h.order⟩
  · obtain ⟨p, hp, hl⟩ := (hq ▸ hp i).link hl
    rw [er]
    exact h.last i p l hp hl
  · obtain ⟨p, hp, hl, hpast⟩ := (hq ▸ hp i).link_past hl hpast
    rw [ec]
    exact h.sent i p l hp hl hpast
  · obtain ⟨p, hp', hq⟩ := h.begun x (er ▸ hx)
    exact (hp' ▸ hp x.id).begun hq
  · obtain ⟨p, hp', hq⟩ := h.past x (ec ▸ hx)
    exact (hp' ▸ hp x.1).past hq

/-- A call that has not begun is registered. -/
theorem register {id conn : Nat} {seq : Option UInt32} {command : EncodedCommand}
    {rest : List UInt8} {e : LogEntry}
    (h : History notes s) (ho : Orderly s) (hl : s.lock.holder = some (.call id))
    (hq : s.phase? id = some .queued)
    (hp : ∀ i, s'.phase? i = if i = id then some (.writing seq conn rest) else s.phase? i) :
    History (notes ++ [.registered id seq conn command, .log e]) s' := by
  have er : registrations (notes ++ [.registered id seq conn command, .log e]) =
      registrations notes ++ [⟨id, seq, conn, command⟩] := registrations_append
  have ec : commands (notes ++ [.registered id seq conn command, .log e]) = commands notes :=
    commands_append.trans (List.append_nil _)
  have hid : s'.phase? id = some (.writing seq conn rest) := by rw [hp, if_pos rfl]
  have hnew : ∀ x ∈ registrations notes, x.id ≠ id := fun x hx he => by
    obtain ⟨p, hxp, hne⟩ := h.begun x hx
    rw [he, hq] at hxp
    cases hxp
    exact hne rfl
  -- Nobody else is linked: the call has the lock and has not begun.
  have hother : ∀ i p l, s'.phase? i = some p → p.link? = some l → i = id ∧ l = (seq, conn) := by
    intro i p l hi hl'
    rw [hp] at hi
    split at hi
    · rename_i he
      cases hi
      cases hl'
      exact ⟨he, rfl⟩
    · have := ho.not_busy_of_queued hl hq hi
      simp [Phase.busy_of_link hl'] at this
  refine ⟨fun i p l hi hl' => ?_, fun i p l hi hl' hpast => ?_, fun x hx => ?_,
    fun x hx => ?_, ?_, ?_⟩
  · obtain ⟨rfl, rfl⟩ := hother i p l hi hl'
    exact ⟨command, by rw [er, List.getLast?_concat]⟩
  · obtain ⟨rfl, rfl⟩ := hother i p l hi hl'
    rw [hid] at hi
    cases hi
    cases hpast
  · rw [er, List.mem_append, List.mem_singleton] at hx
    rcases hx with hx | rfl
    · rw [hp, if_neg (hnew x hx)]
      exact h.begun x hx
    · exact ⟨_, hid, nofun⟩
  · rw [ec] at hx
    obtain ⟨p, hxp, hpast⟩ := h.past x hx
    have hne : x.1 ≠ id := fun he => by
      rw [he, hq] at hxp
      cases hxp
      cases hpast
    rw [hp, if_neg hne]
    exact ⟨p, hxp, hpast⟩
  · rw [er, List.map_append, List.map_singleton]
    refine List.Nodup.append h.nodup (List.nodup_singleton _) (List.disjoint_singleton.mpr ?_)
    simpa using fun x hx => hnew x hx
  · rw [er, ec, List.map_append]
    exact h.order.trans (List.sublist_append_left _ _)

/-- A command comes to be written in full. -/
theorem send {id conn : Nat} {seq : Option UInt32} {rest bytes : List UInt8} (h : History notes s)
    (hw : s.phase? id = some (.writing seq conn rest))
    (hp : ∀ i, s'.phase? i = if i = id then some (.awaiting seq conn) else s.phase? i) :
    History (notes ++ [.wrote conn bytes, .sent id conn]) s' := by
  have er : registrations (notes ++ [.wrote conn bytes, .sent id conn]) = registrations notes :=
    registrations_append.trans (List.append_nil _)
  have ec : commands (notes ++ [.wrote conn bytes, .sent id conn]) =
      commands notes ++ [(id, conn)] :=
    commands_append
  have hid : s'.phase? id = some (.awaiting seq conn) := by rw [hp, if_pos rfl]
  have hnew : (id, conn) ∉ commands notes := fun hm => by
    obtain ⟨p, hxp, hpast⟩ := h.past _ hm
    rw [hw] at hxp
    cases hxp
    cases hpast
  obtain ⟨command, hlast⟩ := h.last id _ _ hw rfl
  refine ⟨fun i p l hi hl => ?_, fun i p l hi hl hpast => ?_, fun x hx => ?_, fun x hx => ?_,
    er ▸ h.nodup, ?_⟩
  · rw [er]
    rw [hp] at hi
    split at hi
    · rename_i he
      cases hi
      cases hl
      exact ⟨command, he ▸ hlast⟩
    · exact h.last i p l hi hl
  · rw [ec, List.mem_append]
    rw [hp] at hi
    split at hi
    · rename_i he
      cases hi
      cases hl
      exact .inr (by simp [he])
    · exact .inl (h.sent i p l hi hl hpast)
  · rw [er] at hx
    rw [hp]
    split
    · exact ⟨_, rfl, nofun⟩
    · exact h.begun x hx
  · rw [ec, List.mem_append, List.mem_singleton] at hx
    rcases hx with hx | rfl
    · rw [hp]
      split
      · exact ⟨_, rfl, rfl⟩
      · exact h.past x hx
    · exact ⟨_, hid, rfl⟩
  -- The command is that of the last registration, and no other command can stand in its place.
  · obtain ⟨init, hinit⟩ := List.getLast?_eq_some_iff.mp hlast
    have ho := h.order
    rw [er, ec, hinit, List.map_append, List.map_singleton]
    rw [hinit, List.map_append, List.map_singleton] at ho
    obtain ⟨l₁, l₂, hl, h₁, h₂⟩ := List.sublist_append_iff.mp ho
    have h₂ : l₂ = [] := List.eq_nil_iff_forall_not_mem.mpr fun x hx => by
      obtain rfl := List.mem_singleton.mp (h₂.subset hx)
      exact hnew (hl ▸ List.mem_append_right _ hx)
    rw [hl, h₂, List.append_nil]
    exact h₁.append (List.Sublist.refl _)

/-- A call that is linked to a connection was registered on it. -/
theorem registered_of_link (h : History notes s) {id : Nat} {p : Phase} {l : Option UInt32 × Nat}
    (hp : s.phase? id = some p) (hl : p.link? = some l) :
    ∃ command, ⟨id, l.1, l.2, command⟩ ∈ registrations notes := by
  obtain ⟨command, hlast⟩ := h.last id p l hp hl
  exact ⟨command, List.mem_of_getLast? hlast⟩

/-- What is registered under one number is one registration. -/
theorem eq_of_id (h : History notes s) {x y : Registration} (hx : x ∈ registrations notes)
    (hy : y ∈ registrations notes) (he : x.id = y.id) : x = y :=
  List.inj_on_of_nodup_map h.nodup hx hy he

/-- A command is written to the connection on which its call was registered. -/
theorem sent_conn (h : History notes s) {x : Registration} {conn : Nat}
    (hx : x ∈ registrations notes) (hs : (x.id, conn) ∈ commands notes) : conn = x.conn := by
  obtain ⟨y, hy, he⟩ := List.mem_map.mp (h.order.subset hs)
  simp only [Prod.mk.injEq] at he
  rw [← he.2, h.eq_of_id hy hx he.1]

end History

/-- Every move keeps the notes true. -/
theorem Move.history {a : Action} (hm : Move setup s a s' ns) (ho : Orderly s) (hw : Wired s)
    (h : History notes s) : History (notes ++ ns) s' := by
  cases hm.effect hw with
  | calm hp _ _ hn => exact h.calm hp hn.registrations_eq hn.commands_eq
  | cancel _ _ _ hp _ _ hn => exact h.calm hp hn.registrations_eq hn.commands_eq
  | close hp _ _ hn => exact h.calm hp hn.registrations_eq hn.commands_eq
  | «open» _ hp _ _ _ hn => exact h.calm hp hn.registrations_eq hn.commands_eq
  | register _ _ hl hq hp _ _ _ => exact h.register ho hl hq hp
  | send hw hp _ _ => exact h.send hw hp
  | hear hp _ _ _ _ hn => exact h.calm hp hn.registrations_eq hn.commands_eq
  | reply hp _ _ _ _ hn => exact h.calm hp hn.registrations_eq hn.commands_eq

/-- What was registered for a call is what encoding its request with its number gives. -/
def Encoded (setup : Setup) (notes : List Note) (s : State) : Prop :=
  ∀ x ∈ registrations notes, ∃ subcommand args, s.request? x.id = some (subcommand, args) ∧
    encode x.seq setup.config.commandPrefix subcommand args = .ok x.command

theorem Encoded.init : Encoded setup [] {} := by simp [Encoded, registrations]

/-- Every move registers only what encoding gives. -/
theorem Move.encoded {a : Action} (hm : Move setup s a s' ns) (hw : Wired s)
    (h : Encoded setup notes s) : Encoded setup (notes ++ ns) s' := by
  have hold : ∀ x ∈ registrations notes, ∃ subcommand args,
      s'.request? x.id = some (subcommand, args) ∧
        encode x.seq setup.config.commandPrefix subcommand args = .ok x.command := fun x hx => by
    obtain ⟨subcommand, args, hq, he⟩ := h x hx
    exact ⟨subcommand, args, hm.request hq, he⟩
  rcases hm.registers hw with hr | ⟨id, conn, call, command, hr, hc, he⟩
  · intro x hx
    rw [registrations_append, hr, List.append_nil] at hx
    exact hold x hx
  · intro x hx
    rw [registrations_append, hr, List.mem_append, List.mem_singleton] at hx
    rcases hx with hx | rfl
    · exact hold x hx
    · exact ⟨_, _, hm.request (State.request?_eq hc), he⟩

/-- A run does not change what a call asks for. -/
theorem request_of_run {as : List Action} (h : run setup s as = some (s', notes)) {id : Nat}
    {c : String × List Arg} (hc : s.request? id = some c) : s'.request? id = some c := by
  induction as using List.reverseRecOn generalizing s' notes with
  | nil =>
    cases h
    exact hc
  | append_singleton as a ih =>
    obtain ⟨t, ns₁, ns₂, h₁, h₂, -⟩ := run_snoc.mp h
    exact (step_move h₂).request (ih h₁)

/-! ### Connections that have been read -/

/-- Whether the connection is there and is not about to be read for the first time. -/
def State.Past (s : State) (conn : Nat) : Prop :=
  conn < s.conns.length ∧ (s.worker.conn? = some conn → s.worker.reads? = some conn)

namespace State.Past

variable {conn : Nat}

theorem still (h : s.Past conn) (hn : s'.conns.length = s.conns.length)
    (hk : s'.worker = s.worker) : s'.Past conn := by
  unfold State.Past
  rw [hn, hk]
  exact h

theorem away (h : s.Past conn) (hn : s'.conns.length = s.conns.length)
    (hk : s'.worker.conn? = none) : s'.Past conn :=
  ⟨hn ▸ h.1, fun hc => by simp [hk] at hc⟩

theorem of_reads (h : Wired s) (hk : s.worker.reads? = some conn) : s.Past conn := by
  have hc : s.worker = .reading conn := by
    cases hw : s.worker <;> simp_all [Worker.reads?]
  have := h.newest conn (by rw [hc]; rfl)
  exact ⟨by omega, fun _ => hk⟩

end State.Past

/-- No move makes a connection new again. -/
theorem Move.past {a : Action} {conn : Nat} (hm : Move setup s a s' ns) (h : s.Past conn) :
    s'.Past conn := by
  have hlen : ∀ (c : Nat) (f : Connection → Connection),
      (s.onConn c f).conns.length = s.conns.length :=
    fun _ _ => by simp [State.onConn]
  cases hm with
  | write => exact h.still (hlen ..) rfl
  | send => exact h.still (hlen ..) rfl
  | close => exact h.still (hlen ..) rfl
  | start hw => exact h.away rfl rfl
  | connect hw =>
    refine ⟨by simpa using Nat.lt_succ_of_lt h.1, fun hc => ?_⟩
    have := h.1
    simp only [Worker.conn?, Option.some.injEq] at hc
    omega
  | connectFail _ hw => exact h.away rfl rfl
  | install hw _ =>
    refine ⟨h.1, fun hc => ?_⟩
    have := h.2 (by rw [hw]; exact hc)
    simp [hw, Worker.reads?] at this
  | «open» hw => exact ⟨h.1, fun hc => hc⟩
  | skip => exact h.still (hlen ..) rfl
  | hear => exact h.still (hlen ..) rfl
  | reply => exact h.still (by rw [routeReply_conns, hlen]) (routeReply_worker ..)
  | readEnd => exact h.away (hlen ..) rfl
  | readFail => exact h.away (hlen ..) rfl
  | resync => exact h.away (hlen ..) rfl
  | disconnect =>
    refine h.away (removeConn_length ..) ?_
    rw [removeConn_worker]
    split <;> rfl
  | wake => exact h.away rfl rfl
  | stop => exact h.away rfl rfl
  | stopInstalling =>
    refine h.away ?_ rfl
    simp [State.tearDown, State.abandonConn, State.sealConn, State.onConn, State.fill]
  | stopReading => exact h.away (hlen ..) rfl
  | deliver => exact h.still (hlen ..) rfl
  | finish => exact h.still (hlen ..) rfl
  | breakOff => exact h.still (hlen ..) rfl
  | _ => exact h.still rfl rfl

/-- The connections that notes speak of have been read. -/
structure Settled (notes : List Note) (s : State) : Prop where
  registered : ∀ x ∈ registrations notes, s.Past x.conn
  line : ∀ conn raw, .line conn raw ∈ notes → s.Past conn

namespace Settled

theorem init : Settled [] {} where
  registered := by simp [registrations]
  line := by simp

/-- What is noted is about the connection that is read. -/
theorem snoc (h : Settled notes s) (hk : ∀ c, s.Past c → s'.Past c)
    (hr : ∀ x ∈ registrations ns, s.worker.reads? = some x.conn)
    (hl : ∀ conn raw, .line conn raw ∈ ns → s.worker.reads? = some conn) (hw : Wired s) :
    Settled (notes ++ ns) s' where
  registered x hx := by
    rw [registrations_append, List.mem_append] at hx
    rcases hx with hx | hx
    · exact hk _ (h.registered x hx)
    · exact hk _ (.of_reads hw (hr x hx))
  line conn raw hn := by
    rcases List.mem_append.mp hn with hn | hn
    · exact hk _ (h.line conn raw hn)
    · exact hk _ (.of_reads hw (hl conn raw hn))

/-- A connection that is about to be read has not been spoken of. -/
theorem fresh (h : Settled notes s) {conn : Nat} (hk : s.worker = .opening conn) :
    (∀ x ∈ registrations notes, x.conn ≠ conn) ∧
      ∀ numbered, repliesOn numbered conn notes = [] := by
  have hne : ¬ s.Past conn := fun hp => by
    have := hp.2 (by rw [hk]; rfl)
    simp [hk, Worker.reads?] at this
  refine ⟨fun x hx he => hne (he ▸ h.registered x hx), fun numbered => ?_⟩
  refine List.filterMap_eq_nil_iff.mpr fun n hn => ?_
  cases n with
  | line c raw =>
    have : c ≠ conn := fun he => hne (he ▸ h.line c raw hn)
    simp [Note.replyOn?, this]
  | _ => rfl

end Settled

/-- Every move speaks only of the connection that is read. -/
theorem Move.settled {a : Action} (hm : Move setup s a s' ns) (hw : Wired s) (h : Settled notes s) :
    Settled (notes ++ ns) s' := by
  have hk : ∀ c, s.Past c → s'.Past c := fun c => hm.past
  have quiet : ∀ {ms : List Note}, Quiet ms →
      ∀ conn raw, .line conn raw ∈ ms → s.worker.reads? = some conn :=
    fun hq conn raw hn => by cases hq _ hn
  cases hm.effect hw with
  | calm _ _ _ hn => exact h.snoc hk (by simp [hn.registrations_eq]) (quiet hn) hw
  | cancel _ _ _ _ _ _ hn => exact h.snoc hk (by simp [hn.registrations_eq]) (quiet hn) hw
  | close _ _ _ hn => exact h.snoc hk (by simp [hn.registrations_eq]) (quiet hn) hw
  | «open» _ _ _ _ _ hn => exact h.snoc hk (by simp [hn.registrations_eq]) (quiet hn) hw
  | register _ _ _ _ _ _ hr _ =>
    refine h.snoc hk (fun x hx => ?_) (by simp) hw
    obtain rfl := List.mem_singleton.mp hx
    exact hr
  | send => exact h.snoc hk (fun x hx => by cases hx) (by simp) hw
  | hear _ _ hr _ _ hn =>
    refine h.snoc hk (fun x hx => ?_) (fun conn raw hm => ?_) hw
    · rw [registrations_cons, hn.registrations_eq] at hx
      cases hx
    · rcases List.mem_cons.mp hm with hm | hm
      · cases hm
        exact hr
      · exact quiet hn conn raw hm
  | reply _ _ hr _ _ hn =>
    refine h.snoc hk (fun x hx => ?_) (fun conn raw hm => ?_) hw
    · rw [registrations_cons, registrations_cons, hn.registrations_eq] at hx
      cases hx
    · simp only [List.mem_cons, reduceCtorEq, false_or] at hm
      rcases hm with hm | hm
      · cases hm
        exact hr
      · exact quiet hn conn raw hm

end Connector
end EfsControl
