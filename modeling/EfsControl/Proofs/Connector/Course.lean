/-
# The course of a run

The course of a run leaves out how bytes arrive: it has the lines that the
worker reads and all other actions, in order. It determines where its runs lead
to, but for what is still to be read, and what they note. For every course that
can be followed there is a run, in which all that the daemon says on a
connection arrives at once when the connection is made.

Key definitions: `Happening`, `follow`, `course`, `newsOf`, `heard`,
`delivered`.
Key theorems: `run_course`, `run_observed`, `run_delivered`, `run_of_course`.
-/
import EfsControl.Proofs.Connector.Emptied
import EfsControl.Proofs.Connector.Traffic

namespace EfsControl

/-- The first line stands in front of the first byte that ends lines. -/
theorem takeLine?_eq_some {t : UInt8} {bs line rest : List UInt8}
    (h : takeLine? t bs = some (line, rest)) : bs = line ++ t :: rest ∧ t ∉ line := by
  induction bs generalizing line rest with
  | nil => cases h
  | cons b bs ih =>
    rw [takeLine?] at h
    by_cases hb : b = t
    · rw [if_pos hb] at h
      cases h
      rw [hb]
      exact ⟨rfl, List.not_mem_nil⟩
    · rw [if_neg hb] at h
      obtain ⟨⟨l, r⟩, hl, he⟩ := Option.map_eq_some_iff.mp h
      cases he
      obtain ⟨hbs, hmem⟩ := ih hl
      refine ⟨by rw [hbs]; rfl, fun hm => ?_⟩
      rcases List.mem_cons.mp hm with he | hm
      · exact hb he.symm
      · exact hmem hm

namespace Connector

variable {setup : Setup} {s s' v : State} {a : Action} {ns : List Note} {conn : Nat}

/-! ### The course of a run -/

/-- What happens along a run: a line is read, or there is an action that is not about input. -/
inductive Happening
  | act (a : Action)
  | line (conn : Nat) (bytes : List UInt8)

/-- What follows from something that happens, where it can happen. -/
def follow (setup : Setup) (v : State) : Happening → Option Next
  | .act a => step setup v a
  | .line conn bytes =>
    if v.worker = .reading conn then some (readBytes setup v conn bytes) else none

/-- What follows from all that happens in a row. -/
def followAll (setup : Setup) (v : State) : List Happening → Option Next
  | [] => some (v, [])
  | x :: w =>
    match follow setup v x with
    | none => none
    | some (v', ns) => (followAll setup v' w).map (noting ns)

/-- What happens with an action in a state; bytes that arrive are nothing yet. -/
def happening? (setup : Setup) (s : State) : Action → Option Happening
  | .deliver .. => none
  | .readLine =>
    match s.worker with
    | .reading conn =>
      ((s.conns[conn]?).bind fun c => takeLine? setup.config.framing.terminator c.inbox).map
        fun (bytes, _) => .line conn bytes
    | _ => none
  | a => some (.act a)

/-- The course of actions in a row. -/
def course (setup : Setup) (s : State) : List Action → List Happening
  | [] => []
  | a :: as =>
    (happening? setup s a).toList ++
      match step setup s a with
      | none => []
      | some (s', _) => course setup s' as

theorem followAll_append (w₁ w₂ : List Happening) :
    followAll setup v (w₁ ++ w₂) =
      (followAll setup v w₁).bind fun x => (followAll setup x.1 w₂).map (noting x.2) := by
  induction w₁ generalizing v with
  | nil =>
    rw [List.nil_append, followAll, Option.bind_some]
    cases followAll setup v w₂ <;> rfl
  | cons x w₁ ih =>
    rw [List.cons_append, followAll, followAll]
    cases follow setup v x with
    | none => rfl
    | some next =>
      simp only [ih]
      cases followAll setup next.1 w₁ with
      | none => rfl
      | some y =>
        simp only [Option.bind_some, Option.map_some, noting]
        cases followAll setup y.1 w₂ with
        | none => rfl
        | some z => simp only [Option.map_some, noting, List.append_assoc]

/-- Lines do not contain the byte that ends them, and reading and the arrival of bytes are no
actions of a course. -/
def WellFormed (setup : Setup) (w : List Happening) : Prop :=
  (∀ a, .act a ∈ w → a.isInput = false) ∧
    ∀ conn bytes, .line conn bytes ∈ w → setup.config.framing.terminator ∉ bytes

theorem happening?_eq (ha : a.isInput = false) : happening? setup s a = some (.act a) := by
  cases a with
  | readLine => cases ha
  | deliver conn bytes => cases ha
  | _ => rfl

/-- What happens is well-formed. -/
theorem happening?_wellFormed {x : Happening} (h : happening? setup s a = some x) :
    WellFormed setup [x] := by
  by_cases hi : a.isInput = true
  · cases a with
    | readLine =>
      rw [happening?] at h
      split at h
      · obtain ⟨⟨bytes, rest⟩, hl, rfl⟩ := Option.map_eq_some_iff.mp h
        obtain ⟨c, -, hl⟩ := Option.bind_eq_some_iff.mp hl
        refine ⟨fun a hm => ?_, fun conn b hm => ?_⟩
        · cases List.mem_singleton.mp hm
        · cases List.mem_singleton.mp hm
          exact (takeLine?_eq_some hl).2
      · cases h
    | deliver => cases h
    | _ => cases hi
  · have ha : a.isInput = false := Bool.not_eq_true _ ▸ hi
    rw [happening?_eq ha] at h
    cases h
    refine ⟨fun b hm => ?_, fun conn b hm => ?_⟩
    · cases List.mem_singleton.mp hm
      exact ha
    · cases List.mem_singleton.mp hm

theorem WellFormed.append {w₁ w₂ : List Happening} (h₁ : WellFormed setup w₁)
    (h₂ : WellFormed setup w₂) : WellFormed setup (w₁ ++ w₂) := by
  refine ⟨fun a hm => ?_, fun conn bytes hm => ?_⟩
  · rcases List.mem_append.mp hm with hm | hm
    · exact h₁.1 a hm
    · exact h₂.1 a hm
  · rcases List.mem_append.mp hm with hm | hm
    · exact h₁.2 conn bytes hm
    · exact h₂.2 conn bytes hm

theorem WellFormed.tail {x : Happening} {w : List Happening} (h : WellFormed setup (x :: w)) :
    WellFormed setup w :=
  ⟨fun a hm => h.1 a (List.mem_cons_of_mem x hm),
    fun conn bytes hm => h.2 conn bytes (List.mem_cons_of_mem x hm)⟩

theorem course_wellFormed (s : State) (as : List Action) :
    WellFormed setup (course setup s as) := by
  induction as generalizing s with
  | nil => exact ⟨nofun, nofun⟩
  | cons a as ih =>
    rw [course]
    refine WellFormed.append ?_ ?_
    · cases hx : happening? setup s a with
      | none => exact ⟨nofun, nofun⟩
      | some x => exact happening?_wellFormed hx
    · cases step setup s a with
      | none => exact ⟨nofun, nofun⟩
      | some next => exact ih next.1

/-- A step is either the arrival of bytes or what follows from something that happens. -/
theorem step_happening (h : step setup s a = some (s', ns)) :
    (happening? setup s a = none ∧ s'.emptied = s.emptied ∧ ns = []) ∨
      ∃ x, happening? setup s a = some x ∧ follow setup s.emptied x = some (s'.emptied, ns) := by
  by_cases hi : a.isInput = true
  · cases a with
    | readLine =>
      obtain ⟨conn, c, bytes, rest, hw, hc, hl, hnext⟩ := step_readLine_iff.mp h
      have hx : happening? setup s .readLine = some (.line conn bytes) := by
        simp only [happening?, hw, hc, Option.bind_some, hl, Option.map_some]
      have hf : follow setup s.emptied (.line conn bytes) =
          some (readBytes setup s.emptied conn bytes) := if_pos hw
      refine .inr ⟨_, hx, ?_⟩
      rw [hf, ← State.emptied_refill s conn fun _ => rest, readBytes_emptied, ← hnext]
      rfl
    | deliver conn bytes =>
      simp only [step] at h
      split at h
      · split at h
        · cases h
        · cases h
          exact .inl ⟨rfl, State.emptied_refill s conn fun c => c.inbox ++ bytes, rfl⟩
      · cases h
    | _ => cases hi
  · have ha : a.isInput = false := Bool.not_eq_true _ ▸ hi
    exact .inr ⟨.act a, happening?_eq ha, step_emptied ha h⟩

/-- Where a run leads to, and all that it notes, follows from its course. -/
theorem run_course {as : List Action} (h : run setup s as = some (s', ns)) :
    followAll setup s.emptied (course setup s as) = some (s'.emptied, ns) := by
  induction as generalizing s ns with
  | nil =>
    cases h
    rfl
  | cons a as ih =>
    obtain ⟨u, n₁, n₂, h₁, h₂, rfl⟩ := run_cons.mp h
    have hrest := ih h₂
    rw [course, h₁]
    obtain ⟨hn, hu, rfl⟩ | ⟨x, hx, hu⟩ := step_happening h₁
    · rw [hn, ← hu]
      exact hrest
    · rw [hx]
      simp only [Option.toList_some, List.singleton_append, followAll, hu, hrest, Option.map_some,
        noting]

/-! ### What is noted about lines -/

/-- Whether a note tells of a line that is read. -/
def Note.isHeard : Note → Bool
  | .line .. | .routed .. | .event _ => true
  | _ => false

/-- Only with input are there notes of this kind. -/
theorem Move.not_heard (hm : Move setup s a s' ns) (ha : a.isInput = false) :
    ∀ n ∈ ns, n.isHeard = false := by
  have hlogs (entries : List LogEntry) : ∀ n ∈ entries.map Note.log, n.isHeard = false := by
    simp [Note.isHeard]
  cases hm with
  | @disconnect final => cases final <;> simp [removeConn, Note.isHeard]
  | skip => cases ha
  | hear => cases ha
  | reply => cases ha
  | deliver => cases ha
  | sever | fail | answer =>
    exact List.forall_mem_append.mpr ⟨hlogs _, by simp [Note.isHeard]⟩
  | «open» => exact List.forall_mem_cons.mpr ⟨rfl, List.forall_mem_cons.mpr ⟨rfl, hlogs _⟩⟩
  | _ => simp [Note.isHeard]

/-- What reading a line notes about it, apart from the log: the line, and the reply or the event
that it is. -/
def newsOf (setup : Setup) (s : State) (conn : Nat) (bytes : List UInt8) : List Note :=
  if lineText bytes = "" then [] else .line conn (lineText bytes) ::
    match parseLine (lineText bytes) setup.config.sequenceNumbers with
    | .ok (.reply r) => [.routed conn r (s.correlator.dispatch r).2]
    | .ok (.event e) => [.event e]
    | .error _ => []

section
variable {β : Type} {obs : Note → Option β} {say : Nat → List UInt8 → Option β}

/-- Apart from the log, only this is noted. -/
theorem filterMap_readBytes (hlog : ∀ e, obs (.log e) = none) (s : State) (conn : Nat)
    (bytes : List UInt8) :
    (readBytes setup s conn bytes).2.filterMap obs = (newsOf setup s conn bytes).filterMap obs := by
  have hlogs (l : List LogEntry) : (l.map Note.log).filterMap obs = [] := by
    rw [List.filterMap_eq_nil_iff]
    intro n hn
    obtain ⟨e, -, rfl⟩ := List.mem_map.mp hn
    exact hlog e
  have hcons (n : Note) {l l' : List Note} (h : l.filterMap obs = l'.filterMap obs) :
      (n :: l).filterMap obs = (n :: l').filterMap obs := by
    rw [List.filterMap_cons, List.filterMap_cons, h]
  unfold readBytes newsOf
  simp only [String.isEmpty_iff]
  split
  · rfl
  · unfold handleLine
    refine hcons (.line conn (lineText bytes)) ?_
    cases parseLine (lineText bytes) setup.config.sequenceNumbers with
    | error e => exact hlogs [.malformedLine e]
    | ok l =>
      cases l with
      | reply r =>
        obtain ⟨entries, hns⟩ := routeReply_notes s conn (lineText bytes) r
        show (routeReply s conn (lineText bytes) r).2.filterMap obs = _
        rw [hns]
        exact hcons _ (hlogs entries)
      | event e =>
        show ((eventLog setup e).map Note.log ++ [Note.event e]).filterMap obs = _
        rw [List.filterMap_append, hlogs, List.nil_append]

/-- What is observed of something that happens, where lines alone say something. -/
def Happening.observe (say : Nat → List UInt8 → Option β) : Happening → Option β
  | .line conn bytes => say conn bytes
  | .act _ => none

theorem followAll_observed (hobs : ∀ n, n.isHeard = false → obs n = none)
    (hread : ∀ s conn bytes,
      (readBytes setup s conn bytes).2.filterMap obs = (say conn bytes).toList)
    {w : List Happening} (hw : WellFormed setup w) {next : Next}
    (h : followAll setup v w = some next) :
    next.2.filterMap obs = w.filterMap (Happening.observe say) := by
  induction w generalizing v next with
  | nil =>
    cases h
    rfl
  | cons x w ih =>
    rw [followAll] at h
    split at h
    · cases h
    rename_i v' n₁ hx
    obtain ⟨rest, hrest, rfl⟩ := Option.map_eq_some_iff.mp h
    have hfirst : n₁.filterMap obs = (x.observe say).toList := by
      cases x with
      | act a =>
        have hm : Move setup v a v' n₁ := step_move hx
        exact List.filterMap_eq_nil_iff.mpr fun n hn =>
          hobs n (hm.not_heard (hw.1 a List.mem_cons_self) n hn)
      | line conn bytes =>
        rw [follow] at hx
        split at hx
        · rw [← show (readBytes setup v conn bytes).2 = n₁ from
            congrArg Prod.snd (Option.some.inj hx)]
          exact hread v conn bytes
        · cases hx
    rw [noting, List.filterMap_append, hfirst, ih hw.tail hrest, List.filterMap_cons]
    cases x.observe say <;> rfl

/-- What is observed along a run, where only what is noted about lines is observed, is what the
lines say that are read, in order. -/
theorem run_observed (hobs : ∀ n, n.isHeard = false → obs n = none)
    (hread : ∀ s conn bytes,
      (readBytes setup s conn bytes).2.filterMap obs = (say conn bytes).toList)
    {as : List Action} (h : run setup s as = some (s', ns)) :
    ns.filterMap obs = (course setup s as).filterMap (Happening.observe say) :=
  followAll_observed hobs hread (course_wellFormed s as) (run_course h)

end

/-! ### What arrives on a connection -/

/-- The lines that are read from a connection. -/
def heard (conn : Nat) (w : List Happening) : List (List UInt8) :=
  w.filterMap fun
    | .line c bytes => if c = conn then some bytes else none
    | .act _ => none

/-- The bytes that arrive on a connection. -/
def delivered (conn : Nat) (as : List Action) : List UInt8 :=
  as.flatMap fun
    | .deliver c bytes => if c = conn then bytes else []
    | _ => []

/-- Lines as they arrive. -/
def asBytes (terminator : UInt8) (lines : List (List UInt8)) : List UInt8 :=
  lines.flatMap (· ++ [terminator])

theorem asBytes_append (t : UInt8) (l₁ l₂ : List (List UInt8)) :
    asBytes t (l₁ ++ l₂) = asBytes t l₁ ++ asBytes t l₂ := List.flatMap_append

theorem heard_append (conn : Nat) (w₁ w₂ : List Happening) :
    heard conn (w₁ ++ w₂) = heard conn w₁ ++ heard conn w₂ := List.filterMap_append

/-- A line that is read was the first that was still to be read. -/
theorem step_readLine {next : Next} (h : step setup s .readLine = some next) :
    ∃ c bytes rest, s.worker = .reading c ∧
      happening? setup s .readLine = some (.line c bytes) ∧
      s.inbox c = bytes ++ setup.config.framing.terminator :: rest ∧
      ∀ conn, next.1.inbox conn = if c = conn then rest else s.inbox conn := by
  obtain ⟨c, x, bytes, rest, hw, hx, hl, rfl⟩ := step_readLine_iff.mp h
  refine ⟨c, bytes, rest, hw, ?_, ?_, fun conn => ?_⟩
  · simp only [happening?, hw, hx, Option.bind_some, hl, Option.map_some]
  · rw [State.inbox_eq hx, (takeLine?_eq_some hl).1]
  · rw [State.inbox, (readBytes_conns ..).1]
    exact State.inbox_refill hx (fun _ => rest) conn

/-- One step takes lines from what is to be read, or adds to it. -/
theorem step_delivered (h : step setup s a = some (s', ns)) (conn : Nat) :
    s.inbox conn ++ delivered conn [a] =
      asBytes setup.config.framing.terminator (heard conn (happening? setup s a).toList) ++
        s'.inbox conn := by
  by_cases hi : a.isInput = true
  · cases a with
    | readLine =>
      obtain ⟨c, bytes, rest, -, hx, hc, hs'⟩ := step_readLine h
      rw [hx, hs' conn]
      by_cases heq : c = conn
      · subst heq
        simp [delivered, heard, asBytes, hc]
      · simp [delivered, heard, asBytes, heq]
    | deliver c bytes =>
      simp only [step] at h
      split at h
      · rename_i x hx
        split at h
        · cases h
        · cases h
          rw [State.inbox_refill hx (fun y => y.inbox ++ bytes)]
          by_cases heq : c = conn
          · subst heq
            simp [delivered, happening?, heard, asBytes, State.inbox_eq hx]
          · simp [delivered, happening?, heard, asBytes, heq]
      · cases h
    | _ => cases hi
  · have ha : a.isInput = false := Bool.not_eq_true _ ▸ hi
    have hnone : delivered conn [a] = [] := by
      cases a with
      | deliver => cases ha
      | _ => rfl
    rw [happening?_eq ha, hnone, (step_move h).inbox ha, List.append_nil]
    rfl

/-- What arrives on a connection along a run is read in lines, one after the other, and the rest is
still to be read. -/
theorem run_delivered {as : List Action} (h : run setup s as = some (s', ns)) (conn : Nat) :
    s.inbox conn ++ delivered conn as =
      asBytes setup.config.framing.terminator (heard conn (course setup s as)) ++
        s'.inbox conn := by
  induction as generalizing s ns with
  | nil =>
    cases h
    exact List.append_nil _
  | cons a as ih =>
    obtain ⟨u, n₁, n₂, h₁, h₂, rfl⟩ := run_cons.mp h
    have hd : delivered conn (a :: as) = delivered conn [a] ++ delivered conn as := by
      rw [← List.singleton_append]
      exact List.flatMap_append
    have hcourse : course setup s (a :: as) =
        (happening? setup s a).toList ++ course setup u as := by
      rw [course, h₁]
    rw [hd, hcourse, heard_append, asBytes_append, ← List.append_assoc, step_delivered h₁ conn,
      List.append_assoc, ih h₂, List.append_assoc]

/-! ### Runs for a course -/

/-- The lines that are read before the next connection. -/
def due : List Happening → List (List UInt8)
  | [] => []
  | .line _ bytes :: w => bytes :: due w
  | .act .connect :: _ => []
  | .act _ :: w => due w

/-- Without a connection no line is read. -/
theorem due_eq_nil {w : List Happening} (hw : ∀ a, .act a ∈ w → a.isInput = false) {next : Next}
    (h : followAll setup v w = some next) (hv : v.worker.conn? = none) : due w = [] := by
  induction w generalizing v next with
  | nil => rfl
  | cons x w ih =>
    rw [followAll] at h
    split at h
    · cases h
    · rename_i v' n₁ hx
      obtain ⟨rest, hrest, -⟩ := Option.map_eq_some_iff.mp h
      cases x with
      | line conn bytes =>
        rw [follow] at hx
        split at hx
        · rename_i hk
          rw [hk] at hv
          cases hv
        · cases hx
      | act a =>
        by_cases hc : a = .connect
        · rw [hc]
          rfl
        · have ha := hw a List.mem_cons_self
          have hv' : v'.worker.conn? = none := by
            rw [Option.eq_none_iff_forall_ne_some]
            intro conn hk
            have := (step_move hx).conn? ha hc hk
            rw [hv] at this
            cases this
          have hdue : due (.act a :: w) = due w := by
            cases a with
            | connect => exact absurd rfl hc
            | _ => rfl
          rw [hdue]
          exact ih (fun b hb => hw b (List.mem_cons_of_mem _ hb)) hrest hv'

/-- A line that stands first in what is to be read can be read. -/
theorem step_readLine_some {bytes rest : List UInt8} (hw : s.worker = .reading conn)
    (ht : setup.config.framing.terminator ∉ bytes)
    (hi : s.inbox conn = bytes ++ setup.config.framing.terminator :: rest) :
    ∃ u, step setup s .readLine = some (u, (readBytes setup s.emptied conn bytes).2) ∧
      u.emptied = (readBytes setup s.emptied conn bytes).1 ∧ u.worker = .reading conn ∧
      u.inbox conn = rest ∧ happening? setup s .readLine = some (.line conn bytes) := by
  obtain ⟨x, hx⟩ : ∃ x, s.conns[conn]? = some x := by
    rw [State.inbox] at hi
    cases hx : s.conns[conn]? with
    | some x => exact ⟨x, rfl⟩
    | none =>
      rw [hx] at hi
      simp at hi
  have hl : takeLine? setup.config.framing.terminator x.inbox = some (bytes, rest) := by
    rw [← State.inbox_eq hx, hi]
    exact takeLine?_line ht rest
  have hstep := step_readLine_iff.mpr ⟨conn, x, bytes, rest, hw, hx, hl, rfl⟩
  have hread : readBytes setup s.emptied conn bytes =
      (readBytes setup (s.onConn conn fun c => { c with inbox := rest }) conn bytes).emptied := by
    rw [← readBytes_emptied, State.emptied_refill s conn fun _ => rest]
  obtain ⟨hconns, hworker⟩ :
      (readBytes setup (s.onConn conn fun c => { c with inbox := rest }) conn bytes).1.conns = _ ∧
      (readBytes setup (s.onConn conn fun c => { c with inbox := rest }) conn bytes).1.worker = _ :=
    readBytes_conns _ conn bytes
  refine ⟨_, ?_, ?_, hworker.trans hw, ?_, ?_⟩
  · rw [hstep, hread]
    rfl
  · rw [hread]
    rfl
  · rw [State.inbox, hconns]
    exact (State.inbox_refill hx (fun _ => rest) conn).trans (if_pos rfl)
  · simp only [happening?, hw, hx, Option.bind_some, hl, Option.map_some]

/-- A course that can be followed is that of a run. What is to be read is all that will be read
before the next connection, and with the next connection all arrives that will be read from it. -/
theorem run_of_course {w : List Happening} (hw : WellFormed setup w)
    (hi : ∀ conn, s.worker.conn? = some conn →
      s.inbox conn = asBytes setup.config.framing.terminator (due w)) {next : Next}
    (h : followAll setup s.emptied w = some next) :
    ∃ as s', run setup s as = some (s', next.2) ∧ course setup s as = w ∧ s'.emptied = next.1 := by
  induction w generalizing s next with
  | nil =>
    cases h
    exact ⟨[], s, rfl, rfl, rfl⟩
  | cons x w ih =>
    have hw' := hw.tail
    rw [followAll] at h
    split at h
    · cases h
    rename_i v' n₁ hx
    obtain ⟨rest, hrest, rfl⟩ := Option.map_eq_some_iff.mp h
    -- One step, then the rest of the run.
    have goOn : ∀ {a u}, step setup s a = some (u, n₁) → happening? setup s a = some x →
        u.emptied = v' → (∀ conn, u.worker.conn? = some conn →
          u.inbox conn = asBytes setup.config.framing.terminator (due w)) →
        ∃ as s', run setup s as = some (s', (noting n₁ rest).2) ∧
          course setup s as = x :: w ∧ s'.emptied = (noting n₁ rest).1 := by
      intro a u hstep hhap hu hinbox
      obtain ⟨as, s', hrun, hcourse, hs'⟩ := ih hw' hinbox (hu ▸ hrest)
      refine ⟨a :: as, s', run_cons.mpr ⟨u, n₁, rest.2, hstep, hrun, rfl⟩, ?_, hs'⟩
      rw [course, hstep, hhap]
      exact congrArg (x :: ·) hcourse
    cases x with
    | line conn bytes =>
      rw [follow] at hx
      split at hx
      · have hk : s.worker = .reading conn := by assumption
        have hin : s.inbox conn =
            bytes ++ setup.config.framing.terminator ::
              asBytes setup.config.framing.terminator (due w) := by
          rw [hi conn (by rw [hk]; rfl)]
          simp [due, asBytes]
        obtain ⟨u, hstep, hu, huk, hinbox, hhap⟩ :=
          step_readLine_some hk (hw.2 conn bytes List.mem_cons_self) hin
        rw [Option.some.inj hx] at hstep hu
        refine goOn hstep hhap hu fun c hc => ?_
        rw [huk] at hc
        cases hc
        exact hinbox
      · cases hx
    | act a =>
      have ha := hw.1 a List.mem_cons_self
      have hx : step setup s.emptied a = some (v', n₁) := hx
      by_cases hc : a = .connect
      · subst hc
        obtain ⟨u, hstep, hu⟩ := step_of_emptied ha nofun hx
        cases step_move hstep with
        | connect hk =>
          set u : State := { s with
            conns := s.conns ++ [{}]
            lock := s.lock.request .worker
            worker := .installing s.conns.length }
          have hnew : u.conns[s.conns.length]? = some {} := List.getElem?_concat_length
          set said := asBytes setup.config.framing.terminator (due w)
          have hdel : step setup u (.deliver s.conns.length said) = _ :=
            step_deliver_some hnew rfl said
          have hv : (u.onConn s.conns.length fun c => { c with inbox := c.inbox ++ said }).emptied =
              v' := (State.emptied_refill u _ _).trans hu
          have hsaid : ∀ conn, u.worker.conn? = some conn →
              (u.onConn s.conns.length fun c => { c with inbox := c.inbox ++ said }).inbox conn =
                said := by
            intro conn hconn
            cases hconn
            rw [State.inbox_refill hnew, if_pos rfl]
            rfl
          obtain ⟨as, s', hrun, hcourse, hs'⟩ := ih hw' hsaid (hv ▸ hrest)
          refine ⟨.connect :: .deliver s.conns.length said :: as, s', ?_, ?_, hs'⟩
          · exact run_cons.mpr ⟨u, [], _, hstep, run_cons.mpr ⟨_, [], _, hdel, hrun, rfl⟩, rfl⟩
          · simp only [course, hstep, hdel, happening?, Option.toList_some, Option.toList_none,
              List.singleton_append, List.nil_append, hcourse]
      · have hdue : due (.act a :: w) = due w := by
          cases a with
          | connect => exact absurd rfl hc
          | _ => rfl
        have hnone : a = .readEnd → ∀ conn, s.worker = .reading conn → s.inbox conn = [] := by
          rintro rfl conn hk
          obtain ⟨c, -, hwc, -, -, -, hnext⟩ := step_readEnd_iff.mp hx
          have hv : v'.worker.conn? = none := by
            have hv' : v' = (readingEnds s.emptied c .connectionLost).1 := congrArg Prod.fst hnext
            rw [hv']
            rfl
          rw [hi conn (by rw [hk]; rfl), hdue, due_eq_nil hw'.1 hrest hv]
          rfl
        obtain ⟨u, hstep, hu⟩ := step_of_emptied ha hnone hx
        refine goOn hstep (happening?_eq ha) hu fun conn hk => ?_
        rw [(step_move hstep).inbox ha, hi conn ((step_move hstep).conn? ha hc hk), hdue]

end Connector
end EfsControl
