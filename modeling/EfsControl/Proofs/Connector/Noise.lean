/-
# Events and other lines that concern no call

The receiver of events and the subscribers get exactly the lines that are
events, each once and in the order in which they are read. Lines that concern no
call, which are events, lines that are not understood, lines without text, and
replies with a number that no call waits for, can be added to what the daemon
says and left out of it at any place: the pending calls and the results of all
calls are the same, whatever the receiver of events makes of them.

Key definitions: `events`, `outcomes`, `Noise`, `OneMore`.
Key theorems: `run_events`, `followAll_oneMore`, `run_undisturbed`.
-/
import EfsControl.Proofs.Connector.Answer
import EfsControl.Proofs.Connector.Course
import EfsControl.Simulation.Basic
import Mathlib.Logic.Relation

namespace EfsControl
namespace Connector

variable {setup : Setup} {s s' v : State} {a : Action} {ns : List Note} {conn : Nat}

/-! ### Events -/

/-- The event that is passed on. -/
def Note.event? : Note → Option Event
  | .event e => some e
  | _ => none

/-- The events that are passed on, in order. -/
def events (ns : List Note) : List Event := ns.filterMap Note.event?

/-- The event in the bytes of a line, if it is one. -/
def eventIn? (numbered : Bool) (bytes : List UInt8) : Option Event :=
  match parseLine (lineText bytes) numbered with
  | .ok (.event e) => some e
  | _ => none

/-- All lines that are read, in order. -/
def lines (w : List Happening) : List (List UInt8) :=
  w.filterMap fun
    | .line _ bytes => some bytes
    | .act _ => none

/-- Exactly the lines that are events are passed on, in the order in which they are read. -/
theorem run_events {as : List Action} (h : run setup s as = some (s', ns)) :
    events ns = (lines (course setup s as)).filterMap (eventIn? setup.config.sequenceNumbers) := by
  have hobs : ∀ n : Note, n.isHeard = false → n.event? = none := by
    intro n hn
    cases n with
    | event e => cases hn
    | _ => rfl
  have hread : ∀ s conn bytes, (readBytes setup s conn bytes).2.filterMap Note.event? =
      (eventIn? setup.config.sequenceNumbers bytes).toList := by
    intro s conn bytes
    rw [filterMap_readBytes fun _ => rfl, newsOf, eventIn?]
    by_cases hempty : lineText bytes = ""
    · rw [if_pos hempty, hempty]
      cases setup.config.sequenceNumbers <;> decide +kernel
    · rw [if_neg hempty]
      cases parseLine (lineText bytes) setup.config.sequenceNumbers with
      | error e => rfl
      | ok l => cases l <;> rfl
  rw [events, run_observed hobs hread h, lines, List.filterMap_filterMap]
  congr 1
  funext x
  cases x <;> rfl

/-- The receiver and the feed get the events that are noted. -/
theorem record_events (w : Simulation) (ns : List Note) :
    (ns.foldl Simulation.record w).events = w.events ++ events ns ∧
      (ns.foldl Simulation.record w).feed.published = w.feed.published ++ events ns := by
  induction ns generalizing w with
  | nil => exact ⟨(List.append_nil _).symm, (List.append_nil _).symm⟩
  | cons n ns ih =>
    obtain ⟨he, hf⟩ := ih (w.record n)
    rw [List.foldl_cons, he, hf]
    cases n with
    | event e => exact ⟨List.append_assoc .., List.append_assoc ..⟩
    | _ => exact ⟨rfl, rfl⟩

/-! ### Lines that concern no call -/

/-- The result that a call returns. -/
def Note.outcome? : Note → Option (Nat × ExchangeResult)
  | .returned id result => some (id, result)
  | _ => none

/-- The results of calls, in the order in which they are returned. -/
def outcomes (ns : List Note) : List (Nat × ExchangeResult) := ns.filterMap Note.outcome?

theorem outcomes_append (ns₁ ns₂ : List Note) :
    outcomes (ns₁ ++ ns₂) = outcomes ns₁ ++ outcomes ns₂ := List.filterMap_append

theorem mem_outcomes {ns : List Note} {id : Nat} {result : ExchangeResult} :
    (id, result) ∈ outcomes ns ↔ .returned id result ∈ ns := by
  simp only [outcomes, List.mem_filterMap]
  constructor
  · rintro ⟨n, hn, hx⟩
    cases n <;> simp only [Note.outcome?, reduceCtorEq, Option.some.injEq, Prod.mk.injEq] at hx
    obtain ⟨rfl, rfl⟩ := hx
    exact hn
  · exact fun h => ⟨_, h, rfl⟩

/-- A line that the worker can read and that concerns no call: it has no text, it is an event, it is
not understood, or it is a reply with a number that no pending call has. -/
def Noise (numbered : Bool) (v : State) (conn : Nat) (bytes : List UInt8) : Prop :=
  v.worker = .reading conn ∧
    (lineText bytes = "" ∨ (∃ e, parseLine (lineText bytes) numbered = .ok (.event e)) ∨
      (∃ e, parseLine (lineText bytes) numbered = .error e) ∨
      ∃ r, parseLine (lineText bytes) numbered = .ok (.reply r) ∧ r.seq.isSome = true ∧
        ∀ p ∈ v.correlator.pending, p.seq ≠ r.seq)

/-- Reading never returns a result. -/
theorem outcomes_readBytes (s : State) (conn : Nat) (bytes : List UInt8) :
    outcomes (readBytes setup s conn bytes).2 = [] := by
  rw [outcomes, filterMap_readBytes fun _ => rfl, newsOf]
  by_cases hempty : lineText bytes = ""
  · rw [if_pos hempty]
    rfl
  · rw [if_neg hempty]
    cases parseLine (lineText bytes) setup.config.sequenceNumbers with
    | error e => rfl
    | ok l => cases l <;> rfl

/-- A reply with a number that no call waits for changes nothing. -/
theorem routeReply_unmatched {r : Reply} (raw : String) (hseq : r.seq.isSome = true)
    (hp : ∀ p ∈ s.correlator.pending, p.seq ≠ r.seq) : (routeReply s conn raw r).1 = s := by
  rw [routeReply_fst, Correlator.dispatch_of_other hseq hp]

/-- A line that concerns no call is read without any change, but to what is still to be read. -/
theorem follow_noise {bytes : List UInt8} (h : Noise setup.config.sequenceNumbers v conn bytes) :
    ∃ ns, follow setup v (.line conn bytes) = some (v, ns) ∧ outcomes ns = [] := by
  obtain ⟨hk, hline⟩ := h
  refine ⟨(readBytes setup v conn bytes).2, ?_, outcomes_readBytes v conn bytes⟩
  rw [follow, if_pos hk]
  congr 1
  refine Prod.ext ?_ rfl
  unfold readBytes
  simp only
  split
  · rfl
  · rename_i hne
    have htext : lineText bytes ≠ "" := fun h => hne (String.isEmpty_iff.mpr h)
    unfold handleLine
    obtain h | ⟨e, he⟩ | ⟨e, he⟩ | ⟨r, hr, hseq, hp⟩ := hline
    · exact absurd h htext
    · rw [he]
      rfl
    · rw [he]
      rfl
    · rw [hr]
      exact routeReply_unmatched (lineText bytes) hseq hp

/-! ### Courses with more or fewer of them -/

/-- What matters of what follows: the state and the results. -/
def Next.seen (next : Next) : State × List (Nat × ExchangeResult) := (next.1, outcomes next.2)

/-- A course has one more line that concerns no call, at the place where it stands. -/
def OneMore (setup : Setup) (w w' : List Happening) : Prop :=
  ∃ w₁ w₂ conn bytes v ns, w = w₁ ++ w₂ ∧ w' = w₁ ++ .line conn bytes :: w₂ ∧
    followAll setup {} w₁ = some (v, ns) ∧ setup.config.framing.terminator ∉ bytes ∧
    Noise setup.config.sequenceNumbers v conn bytes

theorem seen_noting (notes : List Note) (next : Option Next) :
    (next.map (noting notes)).map Next.seen =
      (next.map Next.seen).map fun x => (x.1, outcomes notes ++ x.2) := by
  cases next with
  | none => rfl
  | some x => simp only [Option.map_some, Next.seen, noting, outcomes_append]

/-- One more such line changes nothing that matters. -/
theorem followAll_oneMore {w w' : List Happening} (h : OneMore setup w w') :
    (followAll setup {} w').map Next.seen = (followAll setup {} w).map Next.seen := by
  obtain ⟨w₁, w₂, conn, bytes, v, ns, rfl, rfl, hv, -, hnoise⟩ := h
  obtain ⟨n, hn, hout⟩ := follow_noise hnoise
  rw [followAll_append, followAll_append, hv, Option.bind_some, Option.bind_some, followAll, hn]
  simp only [seen_noting, hout, List.nil_append, Option.map_id']

/-- Such lines can be added and left out as often as one likes. -/
theorem followAll_undisturbed {w w' : List Happening} (h : Relation.EqvGen (OneMore setup) w w') :
    (followAll setup {} w').map Next.seen = (followAll setup {} w).map Next.seen := by
  induction h with
  | rel w w' h => exact followAll_oneMore h
  | refl w => rfl
  | symm w w' _ ih => exact ih.symm
  | trans w₁ w₂ w₃ _ _ ih₁ ih₂ => exact ih₂.trans ih₁

theorem OneMore.wellFormed {w w' : List Happening} (h : OneMore setup w w') :
    WellFormed setup w ↔ WellFormed setup w' := by
  obtain ⟨w₁, w₂, conn, bytes, v, ns, rfl, rfl, -, ht, -⟩ := h
  constructor
  · rintro ⟨ha, hl⟩
    refine ⟨fun a hm => ha a (by simpa using hm), fun c b hm => ?_⟩
    rcases List.mem_append.mp hm with hm | hm
    · exact hl c b (List.mem_append_left _ hm)
    · rcases List.mem_cons.mp hm with he | hm
      · cases he
        exact ht
      · exact hl c b (List.mem_append_right _ hm)
  · rintro ⟨ha, hl⟩
    have hsub : ∀ x ∈ w₁ ++ w₂, x ∈ w₁ ++ .line conn bytes :: w₂ := by
      intro x hx
      rcases List.mem_append.mp hx with hx | hx
      · exact List.mem_append_left _ hx
      · exact List.mem_append_right _ (List.mem_cons_of_mem _ hx)
    exact ⟨fun a hm => ha a (hsub _ hm), fun c b hm => hl c b (hsub _ hm)⟩

theorem wellFormed_of_undisturbed {w w' : List Happening}
    (h : Relation.EqvGen (OneMore setup) w w') : WellFormed setup w ↔ WellFormed setup w' := by
  induction h with
  | rel w w' h => exact h.wellFormed
  | refl w => rfl
  | symm w w' _ ih => exact ih.symm
  | trans w₁ w₂ w₃ _ _ ih₁ ih₂ => exact ih₁.trans ih₂

/-! ### What the receiver of events makes of them -/

section
variable (handles : Event → Bool)

theorem step_handles (ha : a.isInput = false) :
    step { setup with handles } v a = step setup v a := by
  cases a with
  | readLine => cases ha
  | deliver => cases ha
  | _ => rfl

/-- Which events the receiver takes care of shows in the log only. -/
theorem readBytes_handles (conn : Nat) (bytes : List UInt8) :
    (readBytes { setup with handles } v conn bytes).seen = (readBytes setup v conn bytes).seen := by
  refine Prod.ext ?_ ?_
  · simp only [Next.seen, readBytes, handleLine]
    split
    · rfl
    · split <;> rfl
  · exact (outcomes_readBytes v conn bytes).trans (outcomes_readBytes v conn bytes).symm

theorem followAll_handles {w : List Happening} (hw : WellFormed setup w) :
    (followAll { setup with handles } v w).map Next.seen = (followAll setup v w).map Next.seen := by
  induction w generalizing v with
  | nil => rfl
  | cons x w ih =>
    have hx : (follow { setup with handles } v x).map Next.seen =
        (follow setup v x).map Next.seen := by
      cases x with
      | act a =>
        have hstep : step { setup with handles } v a = step setup v a :=
          step_handles handles (hw.1 a List.mem_cons_self)
        rw [follow, follow, hstep]
      | line conn bytes =>
        rw [follow, follow]
        split
        · exact congrArg some (readBytes_handles handles conn bytes)
        · rfl
    rw [followAll, followAll]
    cases h₁ : follow { setup with handles } v x with
    | none =>
      rw [h₁, Option.map_none, eq_comm, Option.map_eq_none_iff] at hx
      rw [hx]
    | some y =>
      rw [h₁, Option.map_some, eq_comm, Option.map_eq_some_iff] at hx
      obtain ⟨z, h₂, hseen⟩ := hx
      obtain ⟨hstate, hout⟩ := Prod.ext_iff.mp hseen
      simp only [Next.seen] at hstate hout
      rw [h₂]
      simp only [seen_noting, hstate, hout, ih hw.tail]

end

/-! ### Runs -/

/-- An event in a line has the code, the message and the text of the line. -/
theorem eventIn?_eq_some {numbered : Bool} {bytes : List UInt8} {e : Event}
    (h : eventIn? numbered bytes = some e) : e.raw = lineText bytes ∧
      600 ≤ e.code ∧ e.code ≤ 699 ∧ ∃ word, Line.readCode? word = some e.code ∧
        Line.splitWord e.raw.toList = (word, e.message.toList) := by
  rw [eventIn?] at h
  split at h
  · rename_i e' he
    cases h
    exact parseLine_event he
  · cases h

/-- Events and replies do not disturb each other. What arrives on a connection is read in lines;
those that are events, and no others, reach the receiver and the subscribers, in the order in which
they are read, with the code, the message and the text of the line. Lines that concern no call can
be added and left out at any place: what the daemon says then can be read by a run that is the same
otherwise, and each such run has the same pending calls and the same results, whatever the receiver
makes of the events. -/
theorem run_undisturbed {as : List Action} (h : run setup {} as = some (s, ns)) :
    (∀ conn, delivered conn as =
      asBytes setup.config.framing.terminator (heard conn (course setup {} as)) ++ s.inbox conn) ∧
    events ns = (lines (course setup {} as)).filterMap (eventIn? setup.config.sequenceNumbers) ∧
    (∀ w : Simulation, (ns.foldl Simulation.record w).events = w.events ++ events ns ∧
      (ns.foldl Simulation.record w).feed.published = w.feed.published ++ events ns) ∧
    (∀ bytes e, eventIn? setup.config.sequenceNumbers bytes = some e → e.raw = lineText bytes ∧
      600 ≤ e.code ∧ e.code ≤ 699 ∧ ∃ word, Line.readCode? word = some e.code ∧
        Line.splitWord e.raw.toList = (word, e.message.toList)) ∧
    ∀ w handles, Relation.EqvGen (OneMore setup) (course setup {} as) w →
      (∃ bs t ns', run { setup with handles } {} bs = some (t, ns') ∧
        course { setup with handles } {} bs = w) ∧
      ∀ bs t ns', run { setup with handles } {} bs = some (t, ns') →
        course { setup with handles } {} bs = w →
        t.correlator = s.correlator ∧ outcomes ns' = outcomes ns ∧ t.emptied = s.emptied := by
  refine ⟨run_delivered h, run_events h, fun w => record_events w ns,
    fun bytes e he => eventIn?_eq_some he, fun w handles hw => ?_⟩
  have hwell : WellFormed setup w := (wellFormed_of_undisturbed hw).mp (course_wellFormed {} as)
  have hcourse : (followAll { setup with handles } {} w).map Next.seen =
      some (s.emptied, outcomes ns) := by
    have hrun : followAll setup {} (course setup {} as) = some (s.emptied, ns) := run_course h
    rw [followAll_handles handles hwell, followAll_undisturbed hw, hrun]
    rfl
  refine ⟨?_, fun bs t ns' hbs hbw => ?_⟩
  · obtain ⟨next, hnext, -⟩ := Option.map_eq_some_iff.mp hcourse
    have hwell' : WellFormed { setup with handles } w := hwell
    have hidle : ∀ conn, ({} : State).worker.conn? = some conn → ({} : State).inbox conn =
        asBytes setup.config.framing.terminator (due w) := by
      intro conn hconn
      cases hconn
    obtain ⟨bs, t, hbs, hbw, -⟩ := run_of_course hwell' hidle hnext
    exact ⟨bs, t, next.2, hbs, hbw⟩
  · have hrun : followAll { setup with handles } {} w = some (t.emptied, ns') :=
      hbw ▸ run_course hbs
    rw [hrun, Option.map_some, Option.some.injEq, Next.seen, Prod.mk.injEq] at hcourse
    obtain ⟨hstate, hout⟩ := hcourse
    have hcor : t.emptied.correlator = s.emptied.correlator := congrArg State.correlator hstate
    exact ⟨hcor, hout, hstate⟩

/-- The course of a call that is answered. -/
def answeredCourse : List Happening := course { config := {} } {} (exchange "200 1 up")

/-- The same with an event and a reply to nobody in front of the answer. -/
def noisyCourse : List Happening :=
  answeredCourse.take 7 ++
    .line 0 (Utf8.ofString "600 started") :: .line 0 (Utf8.ofString "200 9 down") ::
      answeredCourse.drop 7

/-- The call has the same result with an event and a reply to nobody in front of its answer, also if
the receiver takes care of no events. -/
theorem run_undisturbed_exchange : ∃ bs t ns,
    run { config := {}, handles := fun _ => false } {} bs = some (t, ns) ∧
    course { config := {}, handles := fun _ => false } {} bs = noisyCourse ∧
    outcomes ns = [(0, .ok ⟨200, some 1, "up", []⟩)] ∧
    events ns = [⟨600, "started", "600 started"⟩] := by
  have hrun : ((run { config := {} } {} (exchange "200 1 up")).map fun x => outcomes x.2) =
      some [(0, .ok ⟨200, some 1, "up", []⟩)] := by
    decide +kernel
  have hplace : ((followAll { config := {} } {} (answeredCourse.take 7)).map fun x =>
      (x.1.worker, x.1.correlator.pending.map (·.seq))) = some (.reading 0, [some 1]) := by
    decide +kernel
  obtain ⟨⟨s, ns⟩, hx, hout⟩ := Option.map_eq_some_iff.mp hrun
  obtain ⟨⟨v, n⟩, hv, hat⟩ := Option.map_eq_some_iff.mp hplace
  obtain ⟨hk, hpending⟩ := Prod.mk.inj hat
  have hreply : OneMore { config := {} } answeredCourse
      (answeredCourse.take 7 ++ .line 0 (Utf8.ofString "200 9 down") ::
        answeredCourse.drop 7) := by
    refine ⟨_, _, 0, _, v, n, (List.take_append_drop 7 _).symm, rfl, hv, by decide +kernel, hk,
      .inr (.inr (.inr ⟨⟨200, some 9, "down", []⟩, by decide +kernel, rfl, fun p hp he => ?_⟩))⟩
    have hm : some 9 ∈ v.correlator.pending.map (·.seq) := List.mem_map.mpr ⟨p, hp, he⟩
    rw [hpending] at hm
    revert hm
    decide
  have hevent : OneMore { config := {} }
      (answeredCourse.take 7 ++ .line 0 (Utf8.ofString "200 9 down") :: answeredCourse.drop 7)
      noisyCourse :=
    ⟨_, _, 0, _, v, n, rfl, rfl, hv, by decide +kernel, hk,
      .inr (.inl ⟨⟨600, "started", "600 started"⟩, by decide +kernel⟩)⟩
  have hw := Relation.EqvGen.trans _ _ _ (.rel _ _ hreply) (.rel _ _ hevent)
  obtain ⟨-, -, -, -, hall⟩ := run_undisturbed hx
  obtain ⟨⟨bs, t, ns', hbs, hbw⟩, hsame⟩ := hall noisyCourse (fun _ => false) hw
  refine ⟨bs, t, ns', hbs, hbw, (hsame bs t ns' hbs hbw).2.1.trans hout, ?_⟩
  rw [(run_undisturbed hbs).2.1, hbw]
  decide +kernel

end Connector
end EfsControl
