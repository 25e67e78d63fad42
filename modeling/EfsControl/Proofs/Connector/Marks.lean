/-
# What a call leaves behind in the notes

A call is registered once at most, with its own command, and this command is
written in full once at most, on the connection where the call is pending. How
far the call is tells which of the two have happened: a call that is refused is
never registered, and every other result but a failure to write comes after the
command has been written in full.

Key definitions: `registrationsOf`, `commandsOf`, `Marks`.
Key theorems: `Move.marks`, `run_marks`, `run_marks_of_link`.
-/
import EfsControl.Proofs.Connector.Bystander

namespace EfsControl
namespace Connector

variable {setup : Setup} {s s' : State} {a : Action} {notes ns : List Note} {id : Nat}
  {c : String × List Arg}

/-- The registrations of a call. -/
def registrationsOf (id : Nat) (notes : List Note) : List Registration :=
  (registrations notes).filter (·.id = id)

/-- The commands of a call that were written in full, and the connections. -/
def commandsOf (id : Nat) (notes : List Note) : List (Nat × Nat) :=
  (commands notes).filter (·.1 = id)

theorem registrationsOf_append :
    registrationsOf id (notes ++ ns) = registrationsOf id notes ++ registrationsOf id ns := by
  rw [registrationsOf, registrations_append, List.filter_append]
  rfl

theorem commandsOf_append :
    commandsOf id (notes ++ ns) = commandsOf id notes ++ commandsOf id ns := by
  rw [commandsOf, commands_append, List.filter_append]
  rfl

theorem Quiet.registrationsOf_eq (h : Quiet ns) (id : Nat) : registrationsOf id ns = [] := by
  rw [registrationsOf, h.registrations_eq, List.filter_nil]

theorem Quiet.commandsOf_eq (h : Quiet ns) (id : Nat) : commandsOf id ns = [] := by
  rw [commandsOf, h.commands_eq, List.filter_nil]

/-- The registrations of a call that asks for the command `c`, and its commands that were written in
full, when it is in a phase. -/
inductive Marks (cfg : DaemonConfig) (c : String × List Arg) (id : Nat) :
    Phase → List Registration → List (Nat × Nat) → Prop
  | queued : Marks cfg c id .queued [] []
  | refused {e : ExchangeError} (he : e = .notConnected ∨
      ∃ seq x, e = .encode x ∧ encode seq cfg.commandPrefix c.1 c.2 = .error x) :
    Marks cfg c id (.finished (.error e)) [] []
  | left : Marks cfg c id .dropped [] []
  | writing {seq : Option UInt32} {conn : Nat} {command : EncodedCommand} {rest : List UInt8}
    (he : encode seq cfg.commandPrefix c.1 c.2 = .ok command) :
    Marks cfg c id (.writing seq conn rest) [⟨id, seq, conn, command⟩] []
  /-- Writing the command has failed. -/
  | unwritten {seq : Option UInt32} {conn : Nat} {command : EncodedCommand} {cause : String}
    (he : encode seq cfg.commandPrefix c.1 c.2 = .ok command) :
    Marks cfg c id (.finished (.error (.io cause))) [⟨id, seq, conn, command⟩] []
  | leftWriting {seq : Option UInt32} {conn : Nat} {command : EncodedCommand}
    (he : encode seq cfg.commandPrefix c.1 c.2 = .ok command) :
    Marks cfg c id .dropped [⟨id, seq, conn, command⟩] []
  | sent {p : Phase} {seq : Option UInt32} {conn : Nat} {command : EncodedCommand}
    (he : encode seq cfg.commandPrefix c.1 c.2 = .ok command) (hp : p.isPastWriting = true)
    (hl : ∀ l, p.link? = some l → l = (seq, conn)) :
    Marks cfg c id p [⟨id, seq, conn, command⟩] [(id, conn)]

namespace Marks

variable {cfg : DaemonConfig} {p q : Phase} {regs : List Registration} {cmds : List (Nat × Nat)}

theorem of_queued (h : Marks cfg c id .queued regs cmds) : regs = [] ∧ cmds = [] := by
  cases h with
  | queued => exact ⟨rfl, rfl⟩
  | sent _ hp => cases hp

theorem of_writing {seq : Option UInt32} {conn : Nat} {rest : List UInt8}
    (h : Marks cfg c id (.writing seq conn rest) regs cmds) :
    ∃ command, regs = [⟨id, seq, conn, command⟩] ∧ cmds = [] ∧
      encode seq cfg.commandPrefix c.1 c.2 = .ok command := by
  cases h with
  | writing he => exact ⟨_, rfl, rfl, he⟩
  | sent _ hp => cases hp

theorem refuse {e : ExchangeError} (h : Marks cfg c id .queued regs cmds)
    (he : e = .notConnected ∨
      ∃ seq x, e = .encode x ∧ encode seq cfg.commandPrefix c.1 c.2 = .error x) :
    Marks cfg c id (.finished (.error e)) regs cmds := by
  obtain ⟨rfl, rfl⟩ := h.of_queued
  exact .refused he

theorem write {seq : Option UInt32} {conn : Nat} {rest rest' : List UInt8}
    (h : Marks cfg c id (.writing seq conn rest) regs cmds) :
    Marks cfg c id (.writing seq conn rest') regs cmds := by
  obtain ⟨command, rfl, rfl, he⟩ := h.of_writing
  exact .writing he

/-- A call whose command has been written in full goes on. -/
theorem past (h : Marks cfg c id p regs cmds) {l : Option UInt32 × Nat} (hl : p.link? = some l)
    (hp : p.isPastWriting = true) (hq : q.isPastWriting = true)
    (hlq : ∀ l', q.link? = some l' → l' = l) : Marks cfg c id q regs cmds := by
  cases h with
  | sent he _ hl' => exact .sent he hq fun l' h => (hlq l' h).trans (hl' l hl)
  | writing => cases hp
  | queued | refused | left | unwritten | leftWriting => cases hl

/-- A call that has written is linked to its connection no more. -/
theorem unlinked (h : Marks cfg c id p regs cmds) {l : Option UInt32 × Nat} (hl : p.link? = some l)
    (hp : p.isPastWriting = true) (hq : q.isPastWriting = true) (hlq : q.link? = none) :
    Marks cfg c id q regs cmds :=
  h.past hl hp hq fun l' hl' => by
    rw [hlq] at hl'
    cases hl'

/-- A call that has closed its connection comes to its end. -/
theorem closed (h : Marks cfg c id .closing regs cmds) (hq : q.isPastWriting = true)
    (hlq : q.link? = none) : Marks cfg c id q regs cmds := by
  cases h with
  | sent he _ _ => exact .sent he hq fun l hl => by rw [hlq] at hl; cases hl

/-- A call whose caller goes away. -/
theorem drop (h : Marks cfg c id p regs cmds) (hf : ∀ r, p ≠ .finished r) :
    Marks cfg c id .dropped regs cmds := by
  cases h with
  | queued | left => exact .left
  | refused | unwritten => exact absurd rfl (hf _)
  | writing he | leftWriting he => exact .leftWriting he
  | sent he _ _ => exact .sent he rfl nofun

/-- A call is registered once at most, and its command is written in full once at most. -/
theorem length_le (h : Marks cfg c id p regs cmds) : regs.length ≤ 1 ∧ cmds.length ≤ 1 := by
  cases h <;> simp

/-- A call that is linked to a connection has been registered on it. -/
theorem of_link {seq : Option UInt32} {conn : Nat} (h : Marks cfg c id p regs cmds)
    (hl : p.link? = some (seq, conn)) :
    ∃ command, encode seq cfg.commandPrefix c.1 c.2 = .ok command ∧
      regs = [⟨id, seq, conn, command⟩] ∧ (p.isPastWriting = true → cmds = [(id, conn)]) := by
  cases h with
  | queued | refused | left | unwritten | leftWriting => cases hl
  | writing he =>
    cases hl
    exact ⟨_, he, rfl, nofun⟩
  | sent he _ hl' =>
    cases hl' _ hl
    exact ⟨_, he, rfl, fun _ => rfl⟩

/-- A call that the daemon has answered has been registered, and its command has been written in
full. -/
theorem of_answered {result : ExchangeResult} (h : Marks cfg c id (.finished result) regs cmds)
    (hr : (∃ answer, result = .ok answer) ∨ ∃ status text, result = .error (.daemon status text)) :
    ∃ seq conn command, regs = [⟨id, seq, conn, command⟩] ∧ cmds = [(id, conn)] := by
  cases h with
  | sent => exact ⟨_, _, _, rfl, rfl⟩
  | refused he =>
    obtain ⟨answer, hr⟩ | ⟨status, text, hr⟩ := hr
    · cases hr
    · cases hr
      obtain he | ⟨seq, x, he, -⟩ := he <;> cases he
  | unwritten he => obtain ⟨answer, hr⟩ | ⟨status, text, hr⟩ := hr <;> cases hr

/-- What is registered is the command that the call asks for. -/
theorem encoded (h : Marks cfg c id p regs cmds) {x : Registration} (hx : x ∈ regs) :
    encode x.seq cfg.commandPrefix c.1 c.2 = .ok x.command := by
  cases h with
  | queued | refused | left => cases hx
  | writing he | unwritten he | leftWriting he | sent he =>
    obtain rfl := List.mem_singleton.mp hx
    exact he

end Marks

/-- Somebody else's move leaves nothing behind about a call. -/
theorem Move.silent (hm : Move setup s a s' ns) (ha : a.caller? ≠ some id) :
    registrationsOf id ns = [] ∧ commandsOf id ns = [] := by
  have quiet {ms : List Note} (h : Quiet ms) :
      registrationsOf id ms = [] ∧ commandsOf id ms = [] :=
    ⟨h.registrationsOf_eq id, h.commandsOf_eq id⟩
  have news (hn : ∀ n ∈ ns, n.isNews = true) :
      registrationsOf id ns = [] ∧ commandsOf id ns = [] := by
    have hregs : registrations ns = [] := List.filterMap_eq_nil_iff.mpr fun n hn' => by
      have := hn n hn'
      cases n <;> simp_all [Note.isNews, Note.registration?]
    have hcmds : commands ns = [] := List.filterMap_eq_nil_iff.mpr fun n hn' => by
      have := hn n hn'
      cases n <;> simp_all [Note.isNews, Note.command?]
    simp [registrationsOf, commandsOf, hregs, hcmds]
  have hnews := hm.news
  cases hm with
  | @register i _ _ _ _ _ _ _ _ _ =>
    have hi : i ≠ id := fun he => ha (he ▸ rfl)
    simp [registrationsOf, commandsOf, registrations, commands, Note.registration?, Note.command?,
      hi]
  | @send i _ _ _ _ _ _ _ _ _ =>
    have hi : i ≠ id := fun he => ha (he ▸ rfl)
    simp [registrationsOf, commandsOf, registrations, commands, Note.registration?, Note.command?,
      hi]
  | skip | hear | reply | disconnect => exact news (hnews (by simp))
  | sever | fail | answer => exact quiet (.log_append (.cons rfl .nil))
  | «open» => exact quiet (.cons rfl (.cons rfl .of_log))
  | _ => exact quiet (by simp [Quiet, Note.isTraffic])

/-- A move takes a call further, and with it what it leaves behind. -/
theorem Move.marks (hm : Move setup s a s' ns) (hc : s.request? id = some c) {p : Phase}
    (hp : s.phase? id = some p)
    (h : Marks setup.config c id p (registrationsOf id notes) (commandsOf id notes)) :
    ∃ q, s'.phase? id = some q ∧ Marks setup.config c id q (registrationsOf id (notes ++ ns))
      (commandsOf id (notes ++ ns)) := by
  by_cases ha : a.caller? = some id
  · -- Only a registration and the last of the writing leave something behind.
    have keep {q : Phase} (hq : s'.phase? id = some q) (hn : Quiet ns)
        (hmarks : Marks setup.config c id q (registrationsOf id notes) (commandsOf id notes)) :
        ∃ q, s'.phase? id = some q ∧ Marks setup.config c id q (registrationsOf id (notes ++ ns))
          (commandsOf id (notes ++ ns)) := by
      rw [registrationsOf_append, commandsOf_append, hn.registrationsOf_eq, hn.commandsOf_eq,
        List.append_nil, List.append_nil]
      exact ⟨q, hq, hmarks⟩
    have own {call : Call} {q : Phase} (hcall : s.calls[id]? = some call) (hq : call.phase = q) :
        p = q ∧ s.phase? id = some q ∧ (call.subcommand, call.args) = c := by
      have hphase : s.phase? id = some q := hq ▸ State.phase?_eq hcall
      exact ⟨Option.some.inj (hp.symm.trans hphase), hphase,
        Option.some.inj ((State.request?_eq hcall).symm.trans hc)⟩
    have becomes {t : State} {q r : Phase} (ht : t.phase? id = some q) :
        (t.onCall id fun call => { call with phase := r }).phase? id = some r :=
      (State.phase?_onCall ht r id).trans (if_pos rfl)
    have cancelled {q : Phase} (hq : s.phase? id = some q) (seq : Option UInt32) :
        (s.cancel id seq).phase? id = some q := (State.phase?_cancel ..).trans hq
    cases hm with
    | refuse hcall hphase =>
      cases ha
      obtain ⟨rfl, hq, -⟩ := own hcall hphase
      exact keep (becomes hq) (.cons rfl .nil) (h.refuse (.inl rfl))
    | reject hcall hphase _ _ he =>
      cases ha
      obtain ⟨rfl, hq, rfl⟩ := own hcall hphase
      refine keep (becomes hq) (.cons rfl .nil) (h.refuse ?_)
      rcases he with ⟨x, rfl, he⟩ | ⟨rfl, -⟩
      · exact .inr ⟨_, x, rfl, he⟩
      · exact .inl rfl
    | @register _ conn _ command hcall hphase _ _ _ he =>
      cases ha
      obtain ⟨rfl, hq, rfl⟩ := own hcall hphase
      obtain ⟨hregs, hcmds⟩ := h.of_queued
      have hnew : registrationsOf id (notes ++ [.registered id (takeSeq setup.config s).1 conn
          command, .log (.sent command)]) = [⟨id, (takeSeq setup.config s).1, conn, command⟩] := by
        rw [registrationsOf_append, hregs]
        simp [registrationsOf, registrations, Note.registration?]
      have hnone : commandsOf id (notes ++ [.registered id (takeSeq setup.config s).1 conn
          command, .log (.sent command)]) = [] := by
        rw [commandsOf_append, hcmds]
        rfl
      rw [hnew, hnone]
      exact ⟨_, becomes hq, .writing he⟩
    | write hcall hphase =>
      cases ha
      obtain ⟨rfl, hq, -⟩ := own hcall hphase
      exact keep (becomes hq) (.cons rfl .nil) h.write
    | @send _ conn _ _ seq rest hcall hphase =>
      cases ha
      obtain ⟨rfl, hq, -⟩ := own hcall hphase
      obtain ⟨command, hregs, hcmds, he⟩ := h.of_writing
      have hstill : registrationsOf id (notes ++ [.wrote conn rest, .sent id conn]) =
          [⟨id, seq, conn, command⟩] := by
        rw [registrationsOf_append, hregs]
        rfl
      have hsent : commandsOf id (notes ++ [.wrote conn rest, .sent id conn]) = [(id, conn)] := by
        rw [commandsOf_append, hcmds]
        simp [commandsOf, commands, List.filterMap_cons, Note.command?]
      rw [hstill, hsent]
      exact ⟨_, becomes hq, .sent he rfl fun l hl => (Option.some.inj hl).symm⟩
    | writeFail cause hcall hphase =>
      cases ha
      obtain ⟨rfl, hq, -⟩ := own hcall hphase
      obtain ⟨command, hregs, hcmds, he⟩ := h.of_writing
      refine keep (becomes (cancelled hq _)) (.cons rfl (.cons rfl .nil)) ?_
      rw [hregs, hcmds]
      exact .unwritten he
    | sever hcall hphase | fail hcall hphase | answer hcall hphase =>
      cases ha
      obtain ⟨rfl, hq, -⟩ := own hcall hphase
      exact keep (becomes hq) (.log_append (.cons rfl .nil)) (h.unlinked rfl rfl rfl rfl)
    | expire hcall hphase =>
      cases ha
      obtain ⟨rfl, hq, -⟩ := own hcall hphase
      exact keep (becomes hq) .nil (h.past rfl rfl rfl fun l hl => (Option.some.inj hl).symm)
    | giveUp hcall hphase | giveUpLate hcall hphase =>
      cases ha
      obtain ⟨rfl, hq, -⟩ := own hcall hphase
      exact keep (becomes (cancelled hq _)) (.cons rfl (.cons rfl .nil))
        (h.unlinked rfl rfl rfl rfl)
    | close hcall hphase =>
      cases ha
      obtain ⟨rfl, hq, -⟩ := own hcall hphase
      exact keep (becomes (cancelled hq _)) (.cons rfl .nil) (h.unlinked rfl rfl rfl rfl)
    | notify hcall hphase =>
      cases ha
      obtain ⟨rfl, hq, -⟩ := own hcall hphase
      exact keep (becomes hq) (.cons rfl .nil) (h.closed rfl rfl)
    | @drop _ call hcall _ hf =>
      cases ha
      obtain ⟨rfl, hq, -⟩ := own hcall rfl
      exact keep (becomes hq) .nil (h.drop hf)
    | _ => cases ha
  · have hlt := State.phase?_lt hp
    obtain ⟨hregs, hcmds⟩ := hm.silent ha
    rw [registrationsOf_append, commandsOf_append, hregs, hcmds, List.append_nil, List.append_nil]
    exact ⟨p, (hm.phase_other ha hlt).trans hp, h⟩

/-- **What a run leaves behind about a call that comes in it.** -/
theorem run_marks {as : List Action} (h : run setup s as = some (s', notes))
    (hnew : s.calls.length ≤ id) (hc : s'.request? id = some c) {p : Phase}
    (hp : s'.phase? id = some p) :
    Marks setup.config c id p (registrationsOf id notes) (commandsOf id notes) := by
  suffices hinv : ∀ {as s' notes}, run setup s as = some (s', notes) →
      (s'.phase? id = none ∧ registrationsOf id notes = [] ∧ commandsOf id notes = []) ∨
      ∃ c q, s'.request? id = some c ∧ s'.phase? id = some q ∧
        Marks setup.config c id q (registrationsOf id notes) (commandsOf id notes) by
    rcases hinv h with ⟨hnone, -⟩ | ⟨c', q, hc', hq, hmarks⟩
    · rw [hnone] at hp
      cases hp
    · rwa [← Option.some.inj (hq.symm.trans hp), ← Option.some.inj (hc'.symm.trans hc)]
  intro as s' notes h
  clear hc hp
  induction as using List.reverseRecOn generalizing s' notes with
  | nil =>
    cases h
    exact .inl ⟨by simp [State.phase?, hnew], rfl, rfl⟩
  | append_singleton as b ih =>
    obtain ⟨t, ns₁, ns₂, ht, hb, rfl⟩ := run_snoc.mp h
    have hm := step_move hb
    rcases ih ht with ⟨hnone, hregs, hcmds⟩ | ⟨c, q, hc, hq, hmarks⟩
    · -- A call that is not there yet does not act, but it may arrive.
      have hb' : b.caller? ≠ some id := fun ha => by
        obtain ⟨q, hq, -⟩ := hm.not_over_of_caller ha
        rw [hnone] at hq
        cases hq
      obtain ⟨hregs', hcmds'⟩ := hm.silent hb'
      rw [registrationsOf_append, commandsOf_append, hregs, hcmds, hregs', hcmds']
      rcases hm.phase_other_or hb' with hsame | ⟨-, hqueued⟩
      · exact .inl ⟨hsame.trans hnone, rfl, rfl⟩
      · obtain ⟨call, hcall, -⟩ := Option.map_eq_some_iff.mp hqueued
        exact .inr ⟨_, _, State.request?_eq hcall, hqueued, .queued⟩
    · obtain ⟨q', hq', hmarks'⟩ := hm.marks hc hq hmarks
      exact .inr ⟨c, q', hm.request hc, hq', hmarks'⟩

/-- What a call that is linked to a connection has left behind is all that it ever leaves. -/
theorem run_marks_of_link {t : State} {as bs : List Action} (ha : run setup s as = some (t, notes))
    (hb : run setup t bs = some (s', ns)) (hnew : s.calls.length ≤ id)
    (hc : t.request? id = some c) {p : Phase} (hp : t.phase? id = some p)
    {seq : Option UInt32} {conn : Nat} (hl : p.link? = some (seq, conn)) :
    ∃ command, encode seq setup.config.commandPrefix c.1 c.2 = .ok command ∧
      registrationsOf id (notes ++ ns) = [⟨id, seq, conn, command⟩] ∧
      (p.isPastWriting = true → commandsOf id (notes ++ ns) = [(id, conn)]) := by
  obtain ⟨command, he, hregs, hcmds⟩ := (run_marks ha hnew hc hp).of_link hl
  have hc' := request_of_run hb hc
  obtain ⟨call, hcall, -⟩ := Option.map_eq_some_iff.mp hc'
  have hrun : run setup s (as ++ bs) = some (s', notes ++ ns) :=
    run_append.mpr ⟨t, notes, ns, ha, hb, rfl⟩
  obtain ⟨hone, hsent⟩ := (run_marks hrun hnew hc' (State.phase?_eq hcall)).length_le
  rw [registrationsOf_append, hregs] at hone ⊢
  rw [commandsOf_append] at hsent ⊢
  simp only [List.length_append, List.length_singleton] at hone hsent
  refine ⟨command, he, ?_, fun hpast => ?_⟩
  · have hnil : registrationsOf id ns = [] := List.length_eq_zero_iff.mp (by omega)
    rw [hnil, List.append_nil]
  · rw [hcmds hpast, List.length_singleton] at hsent
    have hnil : commandsOf id ns = [] := List.length_eq_zero_iff.mp (by omega)
    rw [hcmds hpast, hnil, List.append_nil]

end Connector
end EfsControl
