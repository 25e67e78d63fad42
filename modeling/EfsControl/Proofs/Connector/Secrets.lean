/-
# Passwords show on the wire only

Two operations that differ in their passwords only are performed on the same
schedule: the same lines arrive, the same writes succeed or fail, the same
callers run out of time, and answers take as long. Then the log is the same line
by line, the result code is the same, and so is every text that shows the
operation, its arguments or its command. The two frames need not have the same
length, so how many writes a command takes is not part of the schedule; that it
has been written in full is.

Key definitions: `performLog`, `performReport?`.
Key theorems: `performLog_veiledNotes`, `run_passwords_hidden`.
-/
import EfsControl.Proofs.Connector.Veil
import EfsControl.Simulation.Basic

namespace EfsControl
namespace Connector

open Simulation (reportOf)

/-- The lines of the log, where an operation is performed by the call with a number. -/
def performLog (op : Operation) (id : Nat) (ns : List Note) : List String :=
  ns.flatMap fun
    | .log e => [e.fullLine]
    | .returned i result =>
      if i = id then (reportOf (.perform op) result).2.map LogEntry.fullLine else []
    | _ => []

/-- What the operation ends with. -/
def performReport? (op : Operation) (id : Nat) (ns : List Note) : Option Report :=
  ns.findSome? fun
    | .returned i result => if i = id then some (reportOf (.perform op) result).1 else none
    | _ => none

variable {setup : Setup} {s s' : State} {ns : List Note} {op op' : Operation}

/-- What is reported and logged about a result does not depend on passwords. -/
theorem reportOf_redacted (hop : op.redacted = op'.redacted) :
    reportOf (.perform op) = reportOf (.perform op') := by
  have hkind : op.resultKind = op'.resultKind := by
    rw [← op.resultKind_redacted, hop, op'.resultKind_redacted]
  have hsub : op.subcommand = op'.subcommand := by
    rw [← op.subcommand_redacted, hop, op'.subcommand_redacted]
  funext result
  simp only [reportOf, hkind, hsub]

/-- The log shows under the veil. -/
theorem performLog_veiledNotes (op : Operation) (id : Nat) (ns : List Note) :
    performLog op id (veiledNotes ns) = performLog op id ns := by
  induction ns with
  | nil => rfl
  | cons n ns ih =>
    rw [← List.singleton_append, veiledNotes_append, performLog, List.flatMap_append]
    refine Eq.trans ?_ List.flatMap_append.symm
    congr 1
    cases n with
    | log e => cases e <;> rfl
    | _ => rfl

/-- The report shows under the veil. -/
theorem performReport?_veiledNotes (op : Operation) (id : Nat) (ns : List Note) :
    performReport? op id (veiledNotes ns) = performReport? op id ns := by
  induction ns with
  | nil => rfl
  | cons n ns ih =>
    rw [← List.singleton_append, veiledNotes_append, performReport?, List.findSome?_append]
    refine Eq.trans ?_ List.findSome?_append.symm
    congr 1
    cases n with
    | log e => cases e <;> rfl
    | _ => rfl

/-- Passwords that can be written influence nothing but the wire. Of two operations that differ in
their passwords only, each run with the one can be followed with the other on the same schedule. On
the same schedule, both have the same log, the same result code and lead to the same state, under
the veil. The texts that show the operation, its arguments and its command are the same. -/
theorem run_passwords_hidden {as : List Action} (hop : op.redacted = op'.redacted)
    (hp : ∀ p ∈ op.passwords ++ op'.passwords, Command.Sendable (.secret p))
    (h : run setup s (.call op.subcommand op.args :: as) = some (s', ns)) :
    (∃ bs t ns', run setup s (.call op'.subcommand op'.args :: bs) = some (t, ns') ∧
      schedule setup s (.call op'.subcommand op'.args :: bs) =
        schedule setup s (.call op.subcommand op.args :: as) ∧
      bs.filter (!·.isWrite) = as.filter (!·.isWrite)) ∧
    (∀ bs t ns', run setup s (.call op'.subcommand op'.args :: bs) = some (t, ns') →
      schedule setup s (.call op'.subcommand op'.args :: bs) =
        schedule setup s (.call op.subcommand op.args :: as) →
      performLog op' s.calls.length ns' = performLog op s.calls.length ns ∧
      performReport? op' s.calls.length ns' = performReport? op s.calls.length ns ∧
      t.veiled = s'.veiled) ∧
    op'.describe = op.describe ∧
    Text.bracketed (op'.args.map Arg.describe) = Text.bracketed (op.args.map Arg.describe) ∧
    ∀ seq commandPrefix,
      (encode seq commandPrefix op'.subcommand op'.args).map (fun c => (c.loggable, c.describe)) =
        (encode seq commandPrefix op.subcommand op.args).map fun c => (c.loggable, c.describe) := by
  have hsub : op'.subcommand = op.subcommand := by
    rw [← op.subcommand_redacted, hop, op'.subcommand_redacted]
  have hargs : op'.args.map Arg.veiled = op.args.map Arg.veiled := by
    rw [op.args_veiled fun p hm => hp p (List.mem_append_left _ hm), hop,
      op'.args_veiled fun p hm => hp p (List.mem_append_right _ hm)]
  have hreport := reportOf_redacted hop
  have hcall : (Action.call op'.subcommand op'.args).veiled =
      (Action.call op.subcommand op.args).veiled := by
    simp only [Action.veiled, hsub, hargs]
  refine ⟨?_, fun bs t ns' h' hs => ?_, ?_, ?_, fun seq commandPrefix => ?_⟩
  · obtain ⟨u, n₁, n₂, h₁, h₂, rfl⟩ := run_cons.mp h
    have hv : (step setup s (.call op'.subcommand op'.args)).map veiledNext = _ :=
      step_alike rfl hcall rfl
    rw [h₁, Option.map_some, Option.map_eq_some_iff] at hv
    obtain ⟨⟨v, n'⟩, hstep, he⟩ := hv
    obtain ⟨bs, t, ns', hr, hs, hf⟩ := run_matched (congrArg Prod.fst he) h₂
    refine ⟨bs, t, n' ++ ns', run_cons.mpr ⟨v, n', ns', hstep, hr, rfl⟩, ?_, hf⟩
    simp only [schedule, Action.seen?, h₁, hstep, hs, hcall]
  · obtain ⟨ht, hn⟩ := run_alike rfl h h' hs
    have hlog : performLog op' = performLog op := by
      funext id ns
      simp only [performLog, hreport]
    have hrep : performReport? op' = performReport? op := by
      funext id ns
      simp only [performReport?, hreport]
    refine ⟨?_, ?_, ht⟩
    · rw [hlog, ← performLog_veiledNotes, hn, performLog_veiledNotes]
    · rw [hrep, ← performReport?_veiledNotes, hn, performReport?_veiledNotes]
  · rw [← op.describe_redacted, hop, op'.describe_redacted]
  · have hshow : ∀ l : List Arg, l.map Arg.describe = (l.map Arg.veiled).map Arg.describe :=
      fun l => by simp only [List.map_map, Function.comp_def, Arg.describe_veiled]
    rw [hshow, hargs, ← hshow]
  · have henc : ∀ l : List Arg, (encode seq commandPrefix op.subcommand l).map
          (fun c => (c.loggable, c.describe)) =
        ((encode seq commandPrefix op.subcommand (l.map Arg.veiled)).map EncodedCommand.veiled).map
          fun c => (c.loggable, c.describe) := by
      intro l
      rw [encode_veiled]
      cases encode seq commandPrefix op.subcommand l <;> rfl
    rw [hsub, henc, hargs, ← henc]

/-- A connection on which calls are taken. -/
def onlineState : State where
  writer := some 0
  correlator := { isOpen := true }
  connected := true
  worker := .reading 0
  conns := [{}]

/-- A command is written in two pieces and answered slowly. -/
def createAnswered : List Action :=
  [.begin 0, .write 0 20, .write 0 100, .deliver 0 (Utf8.ofString "200 1 0" ++ [0]), .readLine,
    .receive 0 (.ofMillis 700)]

/-- The code that a report tells of. -/
def code? : Report → Option Int32
  | .coded code => some code
  | _ => none

/-- A storage is created with a short password or with a longer one. -/
theorem run_passwords_hidden_create : ∃ bs t ns ns',
    run { config := {} } onlineState
      (.call "create" [.text "/data/a", .secret ⟨"a"⟩] :: createAnswered) = some (t, ns) ∧
    (∃ t', run { config := {} } onlineState
      (.call "create" [.text "/data/a", .secret ⟨"a longer secret"⟩] :: bs) = some (t', ns') ∧
      t'.veiled = t.veiled) ∧
    performLog (.createStorage "/data/a" ⟨"a longer secret"⟩) 0 ns' =
      performLog (.createStorage "/data/a" ⟨"a"⟩) 0 ns ∧
    performReport? (.createStorage "/data/a" ⟨"a longer secret"⟩) 0 ns' = some (.coded 0) := by
  have hrun : ((run { config := {} } onlineState
      (.call "create" [.text "/data/a", .secret ⟨"a"⟩] :: createAnswered)).map fun x =>
        (performReport? (.createStorage "/data/a" ⟨"a"⟩) 0 x.2).bind code?) = some (some 0) := by
    decide +kernel
  obtain ⟨⟨t, ns⟩, hx, hcode⟩ := Option.map_eq_some_iff.mp hrun
  have hp : ∀ p ∈ [(⟨"a"⟩ : Password), ⟨"a longer secret"⟩],
      ∀ c ∈ (Arg.secret p).chars, Command.isForbidden c = false := by
    have hnone : ([(⟨"a"⟩ : Password), ⟨"a longer secret"⟩].all fun p =>
        (Arg.secret p).chars.all fun c => !Command.isForbidden c) = true := by decide +kernel
    simpa only [List.all_eq_true, Bool.not_eq_true'] using hnone
  have hreport : performReport? (.createStorage "/data/a" ⟨"a"⟩) 0 ns = some (.coded 0) := by
    obtain ⟨report, hr, hc⟩ := Option.bind_eq_some_iff.mp hcode
    cases report <;> cases hc
    exact hr
  have hop : (Operation.createStorage "/data/a" ⟨"a"⟩).redacted =
      (Operation.createStorage "/data/a" ⟨"a longer secret"⟩).redacted := rfl
  have hall := run_passwords_hidden hop hp hx
  obtain ⟨bs, t', ns', hy, hs, -⟩ := hall.1
  obtain ⟨hlog, hrep, ht⟩ := hall.2.1 bs t' ns' hy hs
  exact ⟨bs, t, ns, ns', hx, ⟨t', hy, ht⟩, hlog, hrep.trans hreport⟩

end Connector
end EfsControl
