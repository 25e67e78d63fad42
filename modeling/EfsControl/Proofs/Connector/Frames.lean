/-
# Whole commands on a connection

A caller that goes away, or whose write fails, leaves the lock to the next one
and the connection as it is. If a part of its command stands there by then, the
next command follows that part. So what is written on every connection is whole
commands with at most one part behind them if and only if nobody writes behind
a part.

Key definitions: `Piece.CutShort`, `Tidy`, `Framed`, `WritesBehindWhole`.
Key theorems: `Accounts.framed_iff`, `Tidy.keep`, `run_framed_iff`, `torn_not_framed`.
-/
import EfsControl.Proofs.Connector.Grants
import EfsControl.Proofs.Connector.Pieces

namespace EfsControl
namespace Connector

variable {setup : Setup} {framing : Framing} {s s' : State} {a : Action} {notes ns : List Note}
  {id conn : Nat} {seq : Option UInt32} {bytes rest : List UInt8}

/-! ### Whole commands -/

/-- The caller has gone away, or its write has failed, with a part of the command written. -/
def Piece.CutShort (framing : Framing) (s : State) (p : Piece) : Prop :=
  (∃ q, s.phase? p.call.id = some q ∧ q.isBroken = true) ∧ p.bytes ≠ [] ∧ p.bytes ≠ p.frame framing

/-- A command behind which something stands is whole. -/
def Tidy (framing : Framing) (ps : List Piece) : Prop :=
  ps.Pairwise fun p q => p.bytes ≠ [] → q.bytes ≠ [] → p.bytes = p.frame framing

instance (framing : Framing) (ps : List Piece) : Decidable (Tidy framing ps) :=
  inferInstanceAs (Decidable (List.Pairwise _ _))

/-- What stands on a connection after a run is whole commands and behind them at most one that is
cut short, in the order in which the calls have obtained the lock. -/
def Framed (setup : Setup) (as : List Action) (notes : List Note) (s : State) (conn : Nat) : Prop :=
  ∃ done cut, (pieces conn notes).filter (·.bytes ≠ []) = done ++ cut ∧ cut.length ≤ 1 ∧
    (∀ p ∈ done, p.bytes = p.frame setup.config.framing) ∧
    (∀ p ∈ cut, p.bytes <+: p.frame setup.config.framing) ∧
    s.output conn =
      done.flatMap (Piece.frame setup.config.framing) ++ cut.flatMap (·.bytes) ∧
    ((done ++ cut).map (·.call.id)).Sublist (lockOrder setup {} as)

/-- No call writes to a connection on which another command has been cut short. -/
def WritesBehindWhole (setup : Setup) (as : List Action) : Prop :=
  ∀ bs id count cs t ns seq conn rest, as = bs ++ .write id count :: cs →
    run setup {} bs = some (t, ns) → t.phase? id = some (.writing seq conn rest) →
    ∀ p ∈ pieces conn ns, ¬ p.CutShort setup.config.framing t

namespace Tidy

variable {ps : List Piece}

/-- Only the pieces with something in them matter. -/
theorem iff_filter : Tidy framing ps ↔
    (ps.filter (·.bytes ≠ [])).Pairwise fun p _ => p.bytes = p.frame framing := by
  rw [List.pairwise_filter]
  simp [Tidy]

/-- Whole commands with at most one part behind them. -/
theorem of_split {done cut : List Piece} (hps : ps.filter (·.bytes ≠ []) = done ++ cut)
    (hc : cut.length ≤ 1) (hd : ∀ p ∈ done, p.bytes = p.frame framing) : Tidy framing ps := by
  have hcut : cut.Pairwise fun p _ => p.bytes = p.frame framing := by
    rcases cut with _ | ⟨p, _ | ⟨q, cut⟩⟩
    · exact .nil
    · exact List.pairwise_singleton _ p
    · simp at hc
  rw [iff_filter, hps, List.pairwise_append]
  refine ⟨?_, hcut, fun p hp _ _ => hd p hp⟩
  exact (List.pairwise_of_forall fun _ _ => trivial).imp_of_mem fun hp _ _ => hd _ hp

/-- All but the last of the pieces with something in them are whole. -/
theorem split (h : Tidy framing ps) : ∃ done cut, ps.filter (·.bytes ≠ []) = done ++ cut ∧
    cut.length ≤ 1 ∧ ∀ p ∈ done, p.bytes = p.frame framing := by
  rcases List.eq_nil_or_concat (ps.filter (·.bytes ≠ [])) with hnil | ⟨done, x, hps⟩
  · exact ⟨[], [], hnil, by simp, by simp⟩
  · rw [List.concat_eq_append] at hps
    rw [iff_filter, hps, List.pairwise_append] at h
    exact ⟨done, [x], hps, by simp, fun p hp => h.2.2 p hp x (List.mem_singleton_self x)⟩

end Tidy

/-- Pieces without bytes add nothing. -/
theorem flatMap_bytes (ps : List Piece) :
    ps.flatMap (·.bytes) = (ps.filter (·.bytes ≠ [])).flatMap (·.bytes) := by
  induction ps with
  | nil => rfl
  | cons p ps ih =>
    by_cases hp : p.bytes = []
    · simp [hp, ih]
    · simp [hp, ih]

/-- A connection with whole commands and at most one part behind them. -/
theorem Accounts.framed_iff {as : List Action}
    (h : Accounts setup.config.framing notes s conn)
    (hl : ((registrations notes).map (·.id)).Sublist (lockOrder setup {} as)) :
    Framed setup as notes s conn ↔ Tidy setup.config.framing (pieces conn notes) := by
  constructor
  · rintro ⟨done, cut, hps, hc, hd, -⟩
    exact Tidy.of_split hps hc hd
  · intro ht
    obtain ⟨done, cut, hps, hc, hd⟩ := ht.split
    refine ⟨done, cut, hps, hc, hd, fun p hp => ?_, ?_, ?_⟩
    · have hm : p ∈ (pieces conn notes).filter (·.bytes ≠ []) := hps ▸ List.mem_append_right _ hp
      exact (h.stands p (List.mem_of_mem_filter hm)).beginning
    · have hframes : done.flatMap (·.bytes) = done.flatMap (Piece.frame setup.config.framing) := by
        simp only [List.flatMap_def]
        rw [List.map_congr_left hd]
      rw [h.output, flatMap_bytes, hps, List.flatMap_append, hframes]
    · have hids : (pieces conn notes).map (·.call.id) =
          (registrationsOn conn notes).map (·.id) := by
        rw [← h.calls, List.map_map]
        rfl
      rw [← hps]
      refine (List.filter_sublist.map _).trans ?_
      rw [hids]
      exact (List.filter_sublist.map _).trans hl

/-! ### One step -/

/-- Only writing puts bytes on a connection. -/
theorem step_pieces_other (hs : step setup s a = some (s', ns))
    (ha : a.isWrite = false) (notes : List Note) (conn : Nat) :
    pieces conn (notes ++ ns) = pieces conn notes ∨
      ∃ x, pieces conn (notes ++ ns) = pieces conn notes ++ [⟨x, []⟩] := by
  cases step_ink hs with
  | none hn _ _ => exact .inl (pieces_no_ink hn conn notes)
  | @register id c seq command _ _ _ _ _ =>
    by_cases hc : c = conn
    · exact .inr ⟨⟨id, seq, c, command⟩, by simp [pieces_append, addNote, hc]⟩
    · exact .inl (by simp [pieces_append, addNote, hc])
  | write => cases ha
  | send => cases ha

/-- Writing adds to the last piece. -/
theorem step_pieces_write {count : Nat} (hs : step setup s (.write id count) = some (s', ns))
    (notes : List Note) : ∃ seq c rest bytes, s.phase? id = some (.writing seq c rest) ∧
      (rest ≠ [] → bytes ≠ []) ∧ ∀ conn, pieces conn (notes ++ ns) =
        if c = conn then (pieces conn notes).modifyLast (Piece.add bytes)
        else pieces conn notes := by
  cases step_ink hs with
  | none _ ha _ => cases ha
  | write hp hb _ _ _ =>
    exact ⟨_, _, _, _, hp, fun _ => hb, fun _ => by simp [pieces_append, addNote]⟩
  | send hp _ =>
    exact ⟨_, _, _, _, hp, fun hr => hr, fun _ => by simp [pieces_append, addNote]⟩

section
variable (ha : Accounts setup.config.framing notes s conn) (hs : Sound setup notes s)
include ha hs

/-- The pieces in front of the one that is being written are whole unless they have been cut
short. -/
theorem Accounts.whole_or_cut {before : List Piece} {x p : Piece}
    (hps : pieces conn notes = before ++ [x]) (hp : s.phase? id = some (.writing seq conn rest))
    (hne : ∀ p ∈ before, p.call.id ≠ id) (hm : p ∈ before) (hb : p.bytes ≠ []) :
    p.bytes = p.frame setup.config.framing ∨ p.CutShort setup.config.framing s := by
  by_cases hw : p.bytes = p.frame setup.config.framing
  · exact .inl hw
  · cases ha.stands p (hps ▸ List.mem_append_left _ hm) with
    | whole hw' => exact absurd hw' hw
    | underway hp' =>
      have hid := hs.orderly.busy_unique hp' hp rfl rfl
      exact absurd hid (hne p hm)
    | broken hq hbroken _ => exact .inr ⟨⟨_, hq, hbroken⟩, hb, hw⟩

/-- Nobody writes behind a command that has been cut short. -/
theorem Tidy.keep (h : Tidy setup.config.framing (pieces conn notes))
    (hstep : step setup s a = some (s', ns))
    (hw : ∀ id count seq rest, a = .write id count → s.phase? id = some (.writing seq conn rest) →
      ∀ p ∈ pieces conn notes, ¬ p.CutShort setup.config.framing s) :
    Tidy setup.config.framing (pieces conn (notes ++ ns)) := by
  by_cases hwrite : a.isWrite = true
  · obtain ⟨id, count, rfl⟩ := Action.isWrite_iff.mp hwrite
    obtain ⟨seq, c, rest, bytes, hp, -, hps⟩ := step_pieces_write hstep notes
    rw [hps conn]
    split
    · rename_i hc
      subst hc
      obtain ⟨before, x, hbx, hid, -, -, hne⟩ := ha.last hs.history hp
      rw [hbx, Tidy, List.pairwise_append] at h
      rw [hbx, List.modifyLast_concat, Tidy, List.pairwise_append]
      refine ⟨h.1, List.pairwise_singleton _ _, fun p hpm q _ hpb _ => ?_⟩
      have hcut := hw id count seq rest rfl hp p (hbx ▸ List.mem_append_left _ hpm)
      exact (ha.whole_or_cut hs hbx hp hne hpm hpb).resolve_right hcut
    · exact h
  · rcases step_pieces_other hstep (by simpa using hwrite) notes conn with hps | ⟨x, hps⟩
    · rw [hps]
      exact h
    · rw [hps, Tidy, List.pairwise_append]
      refine ⟨h, List.pairwise_singleton _ _, fun p _ q hq _ hqb => ?_⟩
      rw [List.mem_singleton.mp hq] at hqb
      exact absurd rfl hqb

/-- What a call writes behind a command that has been cut short stays behind it. -/
theorem Tidy.not_cutShort {count : Nat} (hstep : step setup s (.write id count) = some (s', ns))
    (hp : s.phase? id = some (.writing seq conn rest))
    (h : Tidy setup.config.framing (pieces conn (notes ++ ns))) :
    ∀ p ∈ pieces conn notes, ¬ p.CutShort setup.config.framing s := by
  rintro p hpm ⟨⟨q, hq, hbroken⟩, hpb, hpw⟩
  obtain ⟨seq', c, rest', bytes, hp', hb, hps⟩ := step_pieces_write hstep notes
  obtain ⟨rfl, rfl, rfl⟩ : seq' = seq ∧ c = conn ∧ rest' = rest := by
    simpa [hp, eq_comm] using hp'
  obtain ⟨before, x, hbx, hid, -, -, hne⟩ := ha.last hs.history hp
  have hx := ha.stands x (hbx ▸ List.mem_append_right _ (List.mem_singleton_self x))
  have hrest := (hx.of_writing hs.history (hid ▸ hp)).1
  have hmore : (x.add bytes).bytes ≠ [] := by simp [hb hrest]
  rw [hbx, List.mem_append, List.mem_singleton] at hpm
  rcases hpm with hpm | rfl
  · rw [hps c, if_pos rfl, hbx, List.modifyLast_concat, Tidy, List.pairwise_append] at h
    exact hpw (h.2.2 p hpm _ (List.mem_singleton_self _) hpb hmore)
  · rw [hid, hp] at hq
    cases hq
    cases hbroken

end

/-! ### Along a run -/

theorem WritesBehindWhole.of_prefix {as bs : List Action} (h : WritesBehindWhole setup as)
    (hb : bs <+: as) : WritesBehindWhole setup bs := by
  obtain ⟨rest, rfl⟩ := hb
  rintro ds id count cs t ns seq conn rest' rfl hr
  exact h ds id count (cs ++ rest) t ns seq conn rest' (by simp) hr

/-- Nobody cuts a command short while callers stay and writes succeed. -/
theorem WritesBehindWhole.of_kept {as : List Action} (hk : ∀ a ∈ as, ∀ id, a.abandons id = false) :
    WritesBehindWhole setup as := by
  rintro bs id count cs t ns seq conn rest rfl ht - p - ⟨⟨q, hq, hbroken⟩, -⟩
  have hstay := run_not_broken ht (fun a ha => hk a (List.mem_append_left _ ha)) _ q hq
  rw [hstay] at hbroken
  cases hbroken

/-- While nobody writes behind a part of a command, commands with something behind them are
whole. -/
theorem run_tidy {as : List Action} (h : run setup {} as = some (s, notes))
    (hw : WritesBehindWhole setup as) (conn : Nat) :
    Tidy setup.config.framing (pieces conn notes) := by
  induction as using List.reverseRecOn generalizing s notes with
  | nil =>
    cases h
    exact List.Pairwise.nil
  | append_singleton as a ih =>
    obtain ⟨t, ns₁, ns₂, ht, hs, rfl⟩ := run_snoc.mp h
    refine Tidy.keep (run_accounts ht conn) (run_sound ht) (ih ht (hw.of_prefix ⟨[a], rfl⟩)) hs ?_
    rintro id count seq rest rfl hp
    exact hw as id count [] t ns₁ seq conn rest rfl ht hp

/-- **Whole commands only, and when.** What is written on each connection is at every moment of a
run whole commands in the order in which their calls have obtained the lock, with at most one
behind them that is cut short, if and only if no call writes to a connection on which the command
of a caller that has gone away, or whose write has failed, has been cut short. -/
theorem run_framed_iff {as : List Action} (h : run setup {} as = some (s, notes)) :
    (∀ bs t ns conn, bs <+: as → run setup {} bs = some (t, ns) → Framed setup bs ns t conn) ↔
      WritesBehindWhole setup as := by
  constructor
  · rintro hall bs id count cs t ns seq conn rest rfl hb hp
    have hpre : bs ++ [.write id count] <+: bs ++ .write id count :: cs := ⟨cs, by simp⟩
    obtain ⟨t', ns', ht'⟩ := run_of_prefix h hpre
    have hframed := hall _ t' ns' conn hpre ht'
    obtain ⟨t₁, ns₁, ns₂, ht₁, hstep, rfl⟩ := run_snoc.mp ht'
    obtain ⟨rfl, rfl⟩ : t = t₁ ∧ ns = ns₁ := by simpa [hb] using ht₁
    have htidy := ((run_accounts ht' conn).framed_iff (run_lockOrder ht')).mp hframed
    exact htidy.not_cutShort (run_accounts hb conn) (run_sound hb) hstep hp
  · intro hw bs t ns conn hb ht
    exact ((run_accounts ht conn).framed_iff (run_lockOrder ht)).mpr
      (run_tidy ht (hw.of_prefix hb) conn)

/-- Nobody goes away in an exchange. -/
theorem run_framed_iff_exchange : ∃ s notes,
    run { config := {} } {} (exchange "200 1 done") = some (s, notes) ∧
      ∀ bs t ns conn, bs <+: exchange "200 1 done" → run { config := {} } {} bs = some (t, ns) →
        Framed { config := {} } bs ns t conn := by
  have hrun : (run { config := {} } {} (exchange "200 1 done")).isSome = true := by decide +kernel
  obtain ⟨⟨s, notes⟩, hx⟩ := Option.isSome_iff_exists.mp hrun
  have hk : ∀ a ∈ exchange "200 1 done", ∀ id, a.abandons id = false := by
    simp [exchange, Action.abandons]
  exact ⟨s, notes, hx, (run_framed_iff hx).mpr (.of_kept hk)⟩

/-- A caller goes away with five bytes of its command written, and the next call writes its own. -/
def torn : List Action :=
  [.start, .connect, .install, .open, .call "lock" [], .call "lock" [], .begin 0, .write 0 5,
    .drop 0, .begin 1, .write 1 100]

/-- The next command stands behind the part of the one that was cut short. -/
theorem torn_not_framed : ∃ s notes, run { config := {} } {} torn = some (s, notes) ∧
    s.output 0 = Utf8.ofString "1 efs2 efs-server lock" ++ [0] ∧
    ¬ Framed { config := {} } torn notes s 0 := by
  have hrun : ((run { config := {} } {} torn).map fun x =>
      (x.1.output 0, decide (Tidy .nul (pieces 0 x.2)))) =
      some (Utf8.ofString "1 efs2 efs-server lock" ++ [0], false) := by
    decide +kernel
  obtain ⟨⟨s, notes⟩, hx, hs⟩ := Option.map_eq_some_iff.mp hrun
  simp only [Prod.mk.injEq, decide_eq_false_iff_not] at hs
  refine ⟨s, notes, hx, hs.1, fun hframed => hs.2 ?_⟩
  obtain ⟨done, cut, hps, hc, hd, -⟩ := hframed
  exact Tidy.of_split hps hc hd

end Connector
end EfsControl
