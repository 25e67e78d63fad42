/-
# Lines arrive intact

The worker reads a connection line by line. In what pieces the bytes arrive, and
when, makes no difference: the lines it has read and the lines that wait to be
read are those of all bytes that have arrived. A line that is not ended is never
read. While the worker reads a connection it can read all lines that wait there,
and when it finds the end of one, none waits. So replies that a daemon writes
are read as they were written.

Key definitions: `lineTexts`, `linesOn`, `routedOn`, `State.HasEnded`, `Drained`.
Key theorems: `lineTexts_asBytes`, `run_linesOn`, `run_routedOn`,
`run_readLines`, `run_drained`, `run_lines_intact`.
-/
import EfsControl.Proofs.Connector.Course
import EfsControl.Proofs.Reply.Written

namespace EfsControl

/-- Without a line there is no byte that ends one. -/
theorem not_mem_of_takeLine? {t : UInt8} {bs : List UInt8} (h : takeLine? t bs = none) :
    t ∉ bs := by
  induction bs with
  | nil => exact List.not_mem_nil
  | cons b bs ih =>
    rw [takeLine?] at h
    by_cases hb : b = t
    · rw [if_pos hb] at h
      cases h
    · rw [if_neg hb, Option.map_eq_none_iff] at h
      exact List.not_mem_cons_of_ne_of_not_mem (Ne.symm hb) (ih h)

namespace Connector

variable {setup : Setup} {s s' : State} {a : Action} {as : List Action} {ns : List Note}
  {conn : Nat}

/-! ### The lines of a stream -/

/-- The texts of the lines in a stream of bytes: each stands in front of a byte that ends lines.
What is behind the last of these bytes is no line yet, and a line without text says nothing. -/
def lineTexts (framing : Framing) (bytes : List UInt8) : List String :=
  ((bytes.splitOn framing.terminator).dropLast.map lineText).filter (· ≠ "")

theorem lineTexts_asBytes {framing : Framing} {lines : List (List UInt8)}
    (h : ∀ line ∈ lines, framing.terminator ∉ line) (rest : List UInt8) :
    lineTexts framing (asBytes framing.terminator lines ++ rest) =
      (lines.map lineText).filter (· ≠ "") ++ lineTexts framing rest := by
  have hsplit : ((asBytes framing.terminator lines ++ rest).splitOn framing.terminator).dropLast =
      lines ++ (rest.splitOn framing.terminator).dropLast := by
    induction lines with
    | nil => rfl
    | cons line lines ih =>
      have hcons : asBytes framing.terminator (line :: lines) ++ rest =
          line ++ framing.terminator :: (asBytes framing.terminator lines ++ rest) := by
        simp [asBytes]
      rw [hcons, List.splitOn_append_cons_self_of_not_mem (h line List.mem_cons_self),
        List.dropLast_cons_of_ne_nil (List.splitOn_ne_nil _ _),
        ih fun l hl => h l (List.mem_cons_of_mem line hl), List.cons_append]
  rw [lineTexts, hsplit, List.map_append, List.filter_append, lineTexts]

/-- Without a complete line there is none. -/
theorem lineTexts_eq_nil {framing : Framing} {bytes : List UInt8}
    (h : takeLine? framing.terminator bytes = none) : lineTexts framing bytes = [] := by
  rw [lineTexts, List.splitOn_eq_singleton (not_mem_of_takeLine? h)]
  rfl

/-! ### The lines that are read -/

namespace Note

/-- The text of a line that is read from a connection. -/
def lineOn? (conn : Nat) : Note → Option String
  | .line c raw => if c = conn then some raw else none
  | _ => none

/-- The reply that is read from a connection and given to the pending calls. -/
def routedOn? (conn : Nat) : Note → Option Reply
  | .routed c r _ => if c = conn then some r else none
  | _ => none

end Note

/-- The texts of the lines that are read from a connection, in order. -/
def linesOn (conn : Nat) (ns : List Note) : List String := ns.filterMap (Note.lineOn? conn)

/-- The replies from a connection that are given to the pending calls, in order. -/
def routedOn (conn : Nat) (ns : List Note) : List Reply := ns.filterMap (Note.routedOn? conn)

/-- The reply in the text of a line, if it is one. -/
def replyIn? (numbered : Bool) (raw : String) : Option Reply :=
  match parseLine raw numbered with
  | .ok (.reply r) => some r
  | _ => none

/-- The text of a line, if it has one. -/
def textOf? (bytes : List UInt8) : Option String :=
  if lineText bytes = "" then none else some (lineText bytes)

theorem filterMap_textOf? (lines : List (List UInt8)) :
    lines.filterMap textOf? = (lines.map lineText).filter (· ≠ "") := by
  rw [← List.filterMap_eq_filter, ← List.filterMap_eq_map, List.filterMap_filterMap]
  refine List.filterMap_congr fun bytes _ => ?_
  by_cases h : lineText bytes = "" <;> simp [textOf?, h, Option.guard]

/-- What the lines say that are heard on one connection. -/
theorem filterMap_heard {β : Type} (f : List UInt8 → Option β) (w : List Happening) :
    w.filterMap (Happening.observe fun c bytes => if c = conn then f bytes else none) =
      (heard conn w).filterMap f := by
  rw [heard, List.filterMap_filterMap]
  congr 1
  funext x
  cases x with
  | act a => rfl
  | line c bytes =>
    by_cases h : c = conn <;> simp [Happening.observe, h]

/-- The lines that are noted are those of the course that have a text. -/
theorem run_linesOn (h : run setup s as = some (s', ns)) :
    linesOn conn ns = (heard conn (course setup s as)).filterMap textOf? := by
  have hobs : ∀ n : Note, n.isHeard = false → n.lineOn? conn = none := by
    intro n hn
    cases n with
    | line c raw => cases hn
    | _ => rfl
  have hread : ∀ s c bytes, (readBytes setup s c bytes).2.filterMap (Note.lineOn? conn) =
      (if c = conn then textOf? bytes else none).toList := by
    intro s c bytes
    rw [filterMap_readBytes fun _ => rfl, newsOf, textOf?]
    by_cases hempty : lineText bytes = ""
    · rw [if_pos hempty, if_pos hempty, ite_self]
      rfl
    · rw [if_neg hempty, if_neg hempty]
      rcases parseLine (lineText bytes) setup.config.sequenceNumbers with e | r | e <;>
        by_cases hc : c = conn <;>
          simp [List.filterMap_cons, Note.lineOn?, hc]
  rw [linesOn, run_observed hobs hread h, filterMap_heard]

/-- The replies that are given to the pending calls are those among the lines that are noted. -/
theorem run_routedOn (h : run setup s as = some (s', ns)) :
    routedOn conn ns = (linesOn conn ns).filterMap (replyIn? setup.config.sequenceNumbers) := by
  have hobs : ∀ n : Note, n.isHeard = false → n.routedOn? conn = none := by
    intro n hn
    cases n with
    | routed c r x => cases hn
    | _ => rfl
  have hread : ∀ s c bytes, (readBytes setup s c bytes).2.filterMap (Note.routedOn? conn) =
      (if c = conn then (textOf? bytes).bind (replyIn? setup.config.sequenceNumbers)
        else none).toList := by
    intro s c bytes
    rw [filterMap_readBytes fun _ => rfl, newsOf, textOf?]
    by_cases hempty : lineText bytes = ""
    · rw [if_pos hempty, if_pos hempty, Option.bind_none, ite_self]
      rfl
    · rw [if_neg hempty, if_neg hempty]
      rcases hl : parseLine (lineText bytes) setup.config.sequenceNumbers with e | r | e <;>
        by_cases hc : c = conn <;>
          simp [List.filterMap_cons, Note.routedOn?, replyIn?, hl, hc]
  rw [routedOn, run_observed hobs hread h, filterMap_heard, run_linesOn h, List.filterMap_filterMap]

/-- The lines that are read and those that wait to be read are those of all that has arrived. -/
theorem run_lineTexts (h : run setup s as = some (s', ns)) (conn : Nat) :
    linesOn conn ns ++ lineTexts setup.config.framing (s'.inbox conn) =
      lineTexts setup.config.framing (s.inbox conn ++ delivered conn as) := by
  have hterminator : ∀ line ∈ heard conn (course setup s as),
      setup.config.framing.terminator ∉ line := by
    intro line hline
    obtain ⟨x, hx, hl⟩ := List.mem_filterMap.mp hline
    cases x with
    | act a => cases hl
    | line c bytes =>
      have hbytes : bytes = line := by
        by_cases hc : c = conn
        · exact Option.some.inj ((if_pos hc).symm.trans hl)
        · cases (if_neg hc).symm.trans hl
      exact hbytes ▸ (course_wellFormed s as).2 c bytes hx
  rw [run_delivered h, lineTexts_asBytes hterminator, run_linesOn h, filterMap_textOf?]

/-! ### Reading on -/

/-- While the worker reads a connection it can read until no line waits there. -/
theorem run_readLines (hw : s.worker = .reading conn) : ∃ n t ms,
    run setup s (List.replicate n .readLine) = some (t, ms) ∧
      takeLine? setup.config.framing.terminator (t.inbox conn) = none := by
  -- Every line that is read makes shorter what waits.
  induction hn : (s.inbox conn).length using Nat.strongRecOn generalizing s with
  | ind n ih =>
    cases hl : takeLine? setup.config.framing.terminator (s.inbox conn) with
    | none => exact ⟨0, s, [], rfl, hl⟩
    | some x =>
      obtain ⟨bytes, rest⟩ := x
      obtain ⟨hinbox, ht⟩ := takeLine?_eq_some hl
      obtain ⟨u, hstep, -, hu, hrest, -⟩ := step_readLine_some hw ht hinbox
      have hlt : (u.inbox conn).length < n := by
        rw [← hn, hinbox, hrest, List.length_append, List.length_cons]
        omega
      obtain ⟨k, t, ms, hrun, hnone⟩ := ih _ hlt hu rfl
      exact ⟨k + 1, t, _, run_cons.mpr ⟨u, _, ms, hstep, hrun, rfl⟩, hnone⟩

/-- Reading brings nothing. -/
theorem delivered_readLines (n : Nat) :
    delivered conn (as ++ List.replicate n .readLine) = delivered conn as := by
  have hnone : delivered conn (List.replicate n .readLine) = [] := by
    rw [delivered, List.flatMap_eq_nil_iff]
    intro a ha
    rw [List.eq_of_mem_replicate ha]
  rw [delivered, List.flatMap_append]
  exact (congrArg (delivered conn as ++ ·) hnone).trans (List.append_nil _)

/-! ### The end of a connection -/

/-- Whether nothing more arrives on a connection. -/
def State.HasEnded (s : State) (conn : Nat) : Prop :=
  ∃ c, s.conns[conn]? = some c ∧ c.ended = true

theorem State.HasEnded.onConn {f : Connection → Connection} (h : s.HasEnded conn) (c : Nat)
    (hf : ∀ x, x.ended = true → (f x).ended = true) : (s.onConn c f).HasEnded conn := by
  obtain ⟨x, hx, he⟩ := h
  by_cases hc : c = conn
  · exact ⟨f x, by simp [State.onConn, hx, hc], hf x he⟩
  · exact ⟨x, by simp [State.onConn, hx, hc], he⟩

/-- What has ended does not begin again. -/
theorem Move.hasEnded (hm : Move setup s a s' ns) (h : s.HasEnded conn) : s'.HasEnded conn := by
  cases hm with
  | @write _ c => exact h.onConn c fun _ he => he
  | @send _ c => exact h.onConn c fun _ he => he
  | @close _ _ c => exact h.onConn c fun _ he => he
  | connect =>
    obtain ⟨x, hx, he⟩ := h
    exact ⟨x, (List.getElem?_append_left (List.getElem?_eq_some_iff.mp hx).1).trans hx, he⟩
  | @skip c => exact h.onConn c fun _ he => he
  | @hear c => exact h.onConn c fun _ he => he
  | @reply c rest =>
    have hread : (s.onConn c fun x => { x with inbox := rest }).HasEnded conn :=
      h.onConn c fun _ he => he
    rwa [State.HasEnded, routeReply_conns]
  | @readEnd c => exact h.onConn c fun _ he => he
  | @readFail c => exact h.onConn c fun _ he => he
  | @resync c => exact h.onConn c fun _ he => he
  | disconnect =>
    unfold removeConn
    cases s.writer with
    | none => exact h
    | some c => exact h.onConn c fun _ he => he
  | @stopInstalling c =>
    have hseal : (State.sealConn { s with lock := s.lock.leave .worker } c).HasEnded conn :=
      h.onConn c fun _ he => he
    exact hseal.onConn c fun _ he => he
  | @stopReading c => exact h.onConn c fun _ he => he
  | deliver c bytes => exact h.onConn c fun _ he => he
  | finish c => exact h.onConn c fun _ _ => rfl
  | breakOff c => exact h.onConn c fun _ _ => rfl
  | _ => exact h

/-- Nothing more arrives on a connection, and no line waits there. -/
structure Drained (framing : Framing) (s : State) (conn : Nat) : Prop where
  hasEnded : s.HasEnded conn
  noLine : takeLine? framing.terminator (s.inbox conn) = none

/-- A connection from which everything is read stays so. -/
theorem step_drained (h : Drained setup.config.framing s conn)
    (hs : step setup s a = some (s', ns)) : Drained setup.config.framing s' conn := by
  refine ⟨(step_move hs).hasEnded h.hasEnded, ?_⟩
  obtain ⟨x, hx, he⟩ := h.hasEnded
  have hnone := h.noLine
  by_cases hi : a.isInput = true
  · cases a with
    | readLine =>
      obtain ⟨c, bytes, rest, -, -, hc, hs'⟩ := step_readLine hs
      have hne : c ≠ conn := by
        -- The line that is read would have been waiting.
        rintro rfl
        exact not_mem_of_takeLine? hnone (hc ▸ by simp)
      rwa [hs' conn, if_neg hne]
    | deliver c bytes =>
      simp only [step] at hs
      split at hs
      · rename_i y hy
        split at hs
        · cases hs
        · rename_i hended
          cases hs
          have hne : c ≠ conn := by
            rintro rfl
            rw [hx] at hy
            cases hy
            exact hended he
          rwa [State.inbox_refill hy (fun y => y.inbox ++ bytes), if_neg hne]
      · cases hs
    | _ => cases hi
  · have ha : a.isInput = false := Bool.not_eq_true _ ▸ hi
    rwa [(step_move hs).inbox ha]

/-- That the end of a connection is found is noted by the worker that reads it. -/
theorem Move.readEnd_of_ended (hm : Move setup s a s' ns)
    (hn : .ended conn .connectionLost ∈ ns) : a = .readEnd ∧ s.worker = .reading conn := by
  have hnews := hm.news
  cases hm with
  | readEnd hw =>
    simp only [List.mem_cons, Note.ended.injEq, and_true, reduceCtorEq, List.not_mem_nil,
      or_false] at hn
    exact ⟨rfl, hn ▸ hw⟩
  | hear | reply | disconnect => cases hnews (by simp) _ hn
  | _ => simp at hn

/-- Then nothing is left to be read there. -/
theorem drained_of_ended (hs : step setup s a = some (s', ns))
    (hn : .ended conn .connectionLost ∈ ns) : Drained setup.config.framing s conn := by
  obtain ⟨rfl, hw⟩ := (step_move hs).readEnd_of_ended hn
  obtain ⟨c, x, hc, hx, he, hl, -⟩ := step_readEnd_iff.mp hs
  rw [hw] at hc
  cases hc
  exact ⟨⟨x, hx, he⟩, (State.inbox_eq hx).symm ▸ hl⟩

/-- When the worker has found the end of a connection, everything is read from it. -/
theorem run_drained (h : run setup {} as = some (s, ns)) (hn : .ended conn .connectionLost ∈ ns) :
    Drained setup.config.framing s conn := by
  induction as using List.reverseRecOn generalizing s ns with
  | nil =>
    cases h
    cases hn
  | append_singleton as a ih =>
    obtain ⟨t, n₁, n₂, h₁, h₂, rfl⟩ := run_snoc.mp h
    rcases List.mem_append.mp hn with hn | hn
    · exact step_drained (ih h₁ hn) h₂
    · exact step_drained (drained_of_ended h₂ hn) h₂

/-! ### Replies -/

section
variable {framing : Framing} {numbered : Bool} {replies : List Reply}

/-- The texts of the lines that a daemon writes are what it wrote. -/
theorem lineTexts_frames (h : ∀ r ∈ replies, r.Sendable framing numbered) :
    lineTexts framing (replies.flatMap (·.frame framing)) = replies.map Reply.line := by
  have hbytes : replies.flatMap (·.frame framing) =
      asBytes framing.terminator (replies.map fun r => Utf8.ofString r.line) ++ [] := by
    rw [List.append_nil, asBytes, List.flatMap_map]
    rfl
  have hterminator : ∀ line ∈ replies.map fun r => Utf8.ofString r.line,
      framing.terminator ∉ line := by
    intro line hline
    obtain ⟨r, hr, rfl⟩ := List.mem_map.mp hline
    exact (h r hr).terminator_not_mem
  have htext : ∀ r ∈ replies, lineText (Utf8.ofString r.line) = r.line := by
    intro r hr
    rw [lineText, Utf8.ofString, Utf8.decodeLossy_encode, (h r hr).dropLineEnd_line,
      String.ofList_toList]
  have hall : ∀ raw ∈ replies.map Reply.line, decide (raw ≠ "") = true := by
    intro raw hraw
    obtain ⟨r, -, rfl⟩ := List.mem_map.mp hraw
    exact decide_eq_true r.line_ne_empty
  calc lineTexts framing (replies.flatMap (·.frame framing))
    _ = ((replies.map fun r => Utf8.ofString r.line).map lineText).filter (· ≠ "") := by
      rw [hbytes, lineTexts_asBytes hterminator, lineTexts_eq_nil rfl, List.append_nil]
    _ = (replies.map Reply.line).filter (· ≠ "") := by
      rw [List.map_map]
      exact congrArg (List.filter _) (List.map_congr_left htext)
    _ = replies.map Reply.line := List.filter_eq_self.mpr hall

theorem filterMap_line (h : ∀ r ∈ replies, r.Sendable framing numbered) :
    (replies.map Reply.line).filterMap (replyIn? numbered) = replies := by
  have hone : ∀ r ∈ replies, (replyIn? numbered ∘ Reply.line) r = some r := by
    intro r hr
    rw [Function.comp_apply, replyIn?, (h r hr).parseLine_line]
  rw [List.filterMap_map, List.filterMap_congr hone, List.filterMap_some]

end

/-- **Lines arrive intact.** In whatever pieces bytes arrive on a connection, the lines that have
been read from it, and after them those that wait there, are the lines of all that has arrived. When
the worker has found the end of the connection it has read all of them, and while it reads the
connection it can. If what has arrived are replies as a daemon writes them, the lines are read as
just these replies, and those that have been read were given to the pending calls, in order. -/
theorem run_lines_intact (h : run setup {} as = some (s, ns)) (conn : Nat) :
    linesOn conn ns ++ lineTexts setup.config.framing (s.inbox conn) =
      lineTexts setup.config.framing (delivered conn as) ∧
    (.ended conn .connectionLost ∈ ns →
      linesOn conn ns = lineTexts setup.config.framing (delivered conn as)) ∧
    (s.worker = .reading conn → ∃ n t ms,
      run setup s (List.replicate n .readLine) = some (t, ms) ∧
        linesOn conn (ns ++ ms) = lineTexts setup.config.framing (delivered conn as)) ∧
    ∀ replies : List Reply,
      (∀ r ∈ replies, r.Sendable setup.config.framing setup.config.sequenceNumbers) →
      delivered conn as = replies.flatMap (·.frame setup.config.framing) →
      (lineTexts setup.config.framing (delivered conn as)).map
          (parseLine · setup.config.sequenceNumbers) = replies.map (fun r => .ok (.reply r)) ∧
        routedOn conn ns = replies.take (linesOn conn ns).length := by
  have hlines : linesOn conn ns ++ lineTexts setup.config.framing (s.inbox conn) =
      lineTexts setup.config.framing (delivered conn as) := run_lineTexts h conn
  refine ⟨hlines, fun hn => ?_, fun hw => ?_, fun replies hr hd => ?_⟩
  · rw [← hlines, lineTexts_eq_nil (run_drained h hn).noLine, List.append_nil]
  · obtain ⟨n, t, ms, hrun, hnone⟩ := run_readLines hw
    have hall := run_lineTexts (run_append.mpr ⟨s, ns, ms, h, hrun, rfl⟩) conn
    rw [lineTexts_eq_nil hnone, List.append_nil, delivered_readLines] at hall
    exact ⟨n, t, ms, hrun, hall⟩
  · have htexts : lineTexts setup.config.framing (delivered conn as) = replies.map Reply.line :=
      hd ▸ lineTexts_frames hr
    constructor
    · rw [htexts, List.map_map]
      exact List.map_congr_left fun r hm => (hr r hm).parseLine_line
    · -- The lines that have been read are the first of those that were written.
      have hread : linesOn conn ns =
          (replies.take (linesOn conn ns).length).map Reply.line := by
        rw [List.map_take, ← htexts, ← hlines, List.take_left]
      rw [run_routedOn h, hread, filterMap_line fun r hm => hr r (List.mem_of_mem_take hm),
        ← hread]

/-- A reply in two lines; the first holds a line feed behind a character of two bytes, and the
second has no message. -/
def twoReplies : List Reply := [⟨100, some 1, "é\nx", []⟩, ⟨200, some 1, "", []⟩]

/-- The worker connects and reads the two lines, which arrive in two pieces; the first ends within a
character. -/
def fragments : List Action :=
  let bytes := twoReplies.flatMap (·.frame .nul)
  [.start, .connect, .install, .open, .deliver 0 (bytes.take 7), .deliver 0 (bytes.drop 7),
    .readLine, .readLine, .finish 0, .readEnd]

/-- Both replies are read and given to the pending calls, and before that the worker can read
them. -/
theorem run_lines_intact_fragments :
    (∃ s notes, run { config := {} } {} fragments = some (s, notes) ∧
      linesOn 0 notes = ["100 1 é\nx", "200 1 "] ∧ routedOn 0 notes = twoReplies) ∧
    ∃ s notes n t ms, run { config := {} } {} (fragments.take 6) = some (s, notes) ∧
      run { config := {} } s (List.replicate n .readLine) = some (t, ms) ∧
      linesOn 0 (notes ++ ms) = ["100 1 é\nx", "200 1 "] := by
  have hsendable : ∀ r ∈ twoReplies, r.Sendable .nul true := by
    intro r hr
    rcases List.mem_pair.mp hr with rfl | rfl
    · refine ⟨by decide, rfl, by decide, fun c hc => ?_, rfl⟩
      cases hc
      decide
    · exact ⟨by decide, rfl, by decide, nofun, rfl⟩
  have hdelivered : delivered 0 fragments = twoReplies.flatMap (·.frame .nul) := by decide +kernel
  have hbefore : delivered 0 (fragments.take 6) = twoReplies.flatMap (·.frame .nul) := by
    decide +kernel
  have htexts : lineTexts .nul (twoReplies.flatMap (·.frame .nul)) =
      ["100 1 é\nx", "200 1 "] := by decide +kernel
  have hlost : ((run { config := {} } {} fragments).map fun x => x.2.any fun
      | .ended 0 .connectionLost => true
      | _ => false) = some true := by decide +kernel
  have hreading : ((run { config := {} } {} (fragments.take 6)).map fun x => x.1.worker) =
      some (.reading 0) := by decide +kernel
  obtain ⟨⟨s, notes⟩, hx, hended⟩ := Option.map_eq_some_iff.mp hlost
  obtain ⟨⟨u, before⟩, hu, hworker⟩ := Option.map_eq_some_iff.mp hreading
  constructor
  · obtain ⟨note, hm, hnote⟩ := List.any_eq_true.mp hended
    have hn : .ended 0 .connectionLost ∈ notes := by
      split at hnote
      · exact hm
      · cases hnote
    obtain ⟨-, hall, -, hreplies⟩ := run_lines_intact hx 0
    have hlines : linesOn 0 notes = ["100 1 é\nx", "200 1 "] := by
      rw [hall hn, hdelivered]
      exact htexts
    refine ⟨s, notes, hx, hlines, ?_⟩
    rw [(hreplies twoReplies hsendable hdelivered).2, hlines]
    rfl
  · obtain ⟨-, -, hcan, -⟩ := run_lines_intact hu 0
    obtain ⟨n, t, ms, hrun, hlines⟩ := hcan hworker
    rw [hbefore] at hlines
    exact ⟨u, before, n, t, ms, hu, hrun, hlines.trans htexts⟩

end Connector
end EfsControl
