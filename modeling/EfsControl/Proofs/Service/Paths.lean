/-
# Through the service and without it

An operation is performed through the service or by a connector of the
command's own. Both perform this very operation by one call, and print the
code of what this call comes to; and both have the daemon sent the same
command, but for its number, since each connector takes the prefix from the
same configuration.

Key definitions: `Stack.Proper`, `Shell.serviceSim`.
Key theorems: `Stack.proper_start`, `Shell.proper_startService`,
`Shell.call_perform`, `Shell.performRemote_performDirect`.
-/
import EfsControl.Proofs.Http.Perform
import EfsControl.Proofs.Simulation.Performed
import EfsControl.Simulation.Shell

namespace EfsControl

open Client (Call)
open Connector (registrationsOf)
open Simulation (Performed performed)

/-! ### A service -/

/-- The connector of a service is set up by the configuration of the service, and every call that a
caller has made is one of the connector. -/
structure Stack.Proper (s : Stack) : Prop where
  setup : s.sim.setup.config = s.config.daemon
  linked : s.sim.Linked

namespace Stack

theorem proper_finish {s : Stack} (h : s.Proper) (cause : Option String) :
    (s.finish cause).Proper := by
  have hsim : s.sim.Evolves (s.finish cause).sim :=
    (Simulation.evolves_shutDown _).trans (Simulation.evolves_settle _)
  exact ⟨(congrArg Connector.Setup.config hsim.setup).trans h.setup, h.linked.evolves hsim⟩

theorem proper_start {config : AppConfig} {sim : Simulation} (files : Files)
    (h : sim.setup.config = config.daemon) (hl : sim.Linked) : (start config sim files).Proper := by
  unfold start
  split
  · exact ⟨h, hl⟩
  · rename_i cause _
    exact proper_finish (s := { config, sim, files := _ }) ⟨h, hl⟩ (some cause)

end Stack

namespace Shell

variable {sh : Shell} {config : AppConfig} {patience : Nat}

theorem setup_start_connector (sh : Shell) (setup : Connector.Setup) :
    (sh.connector setup).start.setup = setup :=
  (Simulation.evolves_start (sh.connector setup)).setup

theorem linked_start_connector (sh : Shell) (setup : Connector.Setup) :
    (sh.connector setup).start.Linked := by
  have hl : (sh.connector setup).Linked := fun k id h => by
    simp [connector, Simulation.call?, Simulation.ofSetup] at h
  exact hl.evolves (Simulation.evolves_start _)

/-- A service that has just started is set up by its configuration. -/
theorem proper_startService {s : Stack} (hbefore : sh.service = none)
    (h : (sh.startService config).1.service = some s) : s.Proper ∧ s.config = config := by
  have hsettled := Simulation.evolves_settle (sh.connector (.ofService config.daemon)).start
  have hsetup : (sh.connector (.ofService config.daemon)).start.settle.setup =
      .ofService config.daemon := hsettled.setup.trans (setup_start_connector sh _)
  have hstart : (Stack.start config (sh.connector (.ofService config.daemon)).start.settle
      sh.files).config = config := by
    unfold Stack.start
    split <;> rfl
  unfold startService at h
  simp only at h
  split at h
  · rw [show sh.service = some s from h] at hbefore
    cases hbefore
  · cases h
    exact ⟨Stack.proper_start sh.files (congrArg Connector.Setup.config hsetup)
      ((linked_start_connector sh _).evolves hsettled), hstart⟩

/-- A connector that a command has for itself is set up by the configuration. -/
theorem proper_connect {sim : Simulation} (h : sh.connect config = some sim) :
    sim.setup.config = config.daemon ∧ sim.Linked := by
  unfold connect at h
  simp only at h
  split at h
  · cases h
    let started := (sh.connector (.ofNobody config.daemon)).start
    have hspawn := Simulation.alike_spawn started (.awaitConnection connectLimit)
    have hwait := (Simulation.evolves_settle _).trans <|
      Simulation.evolves_waitFor (started.spawn (.awaitConnection connectLimit)).2
        (connectLimit / Simulation.tick + 1)
        (started.spawn (.awaitConnection connectLimit)).1.settle
    exact ⟨congrArg Connector.Setup.config
      ((hwait.setup.trans hspawn.setup).trans (setup_start_connector sh _)),
      ((linked_start_connector sh _).spawn _).evolves hwait⟩
  · cases h

/-! ### Both ways -/

/-- The service as a call finds it. -/
def serviceSim (sh : Shell) (s : Stack) : Simulation := { s.sim with received := sh.received }

/-- A call for an operation has the service perform it once, and brings back its code. -/
theorem call_perform {s : Stack} {op : Operation}
    (hbody : (Utf8.ofString op.writeBody).length ≤ Http.bodyLimit)
    (hservice : sh.service = some s)
    (hsocket : sh.files.socketAt config.service.socketPath = .listening) (patience : Nat) :
    sh.call config (.perform op) patience =
      (sh.beside { s with sim := ((sh.serviceSim s).performOne op patience).1 },
        ((sh.serviceSim s).performOne op patience).2.map .ok) := by
  have hserve : (sh.serviceSim s).serve s.config (Call.perform op).request patience =
      (((sh.serviceSim s).performOne op patience).1,
        { response := ((sh.serviceSim s).performOne op patience).2.map Http.resultResponse }) := by
    rw [Simulation.serve, Http.handle_perform _ hbody]
  have hexchange : Stack.exchange { s with sim := sh.serviceSim s } (.perform op) patience =
      ({ s with sim := ((sh.serviceSim s).performOne op patience).1 },
        ((sh.serviceSim s).performOne op patience).2.map .ok) := by
    simp only [Stack.exchange, hserve, Option.map_map, Bool.false_eq_true, if_false]
    congr 2
    funext code
    exact Client.read_resultResponse op code
  simp only [call, hsocket, hservice, Client.reach]
  change (sh.beside (Stack.exchange { s with sim := sh.serviceSim s } (.perform op) patience).1,
    (Stack.exchange { s with sim := sh.serviceSim s } (.perform op) patience).2) = _
  rw [hexchange]

/-- What comes of an operation through the service. -/
theorem performRemote_eq {s : Stack} {op : Operation}
    (hbody : (Utf8.ofString op.writeBody).length ≤ Http.bodyLimit)
    (hservice : sh.service = some s)
    (hsocket : sh.files.socketAt config.service.socketPath = .listening) (patience : Nat) :
    sh.performRemote config op patience =
      (sh.beside { s with sim := ((sh.serviceSim s).performOne op patience).1 },
        ((sh.serviceSim s).performOne op patience).2.elim .killed (Cli.operationResult op)) := by
  rw [performRemote, call_perform hbody hservice hsocket patience]
  cases ((sh.serviceSim s).performOne op patience).2 <;> rfl

/-- What comes of an operation without the service. -/
theorem performDirect_eq {sim : Simulation} (h : sh.connect config = some sim) (op : Operation)
    (patience : Nat) :
    sh.performDirect config op patience =
      ({ sh with received := (sim.performOne op patience).1.received },
        (sim.performOne op patience).2.elim .killed (Cli.operationResult op)) := by
  unfold performDirect
  split
  · rename_i hnone
    rw [h] at hnone
    cases hnone
  · rename_i sim' hsome
    obtain rfl : sim = sim' := Option.some.inj (h.symm.trans hsome)
    generalize sim.performOne op patience = done
    rfl

/-- What is registered for a call on two connectors with one configuration differs in its number at
most. -/
theorem command_eq {w w' : Simulation} {op : Operation} {u u' : Simulation}
    {code code' : Option Int32} {id id' : Nat} {notes notes' : List Connector.Note}
    (h : Performed w op patience u code id notes)
    (h' : Performed w' op patience u' code' id' notes')
    (hconfig : w.setup.config = w'.setup.config) {x y : Connector.Registration}
    (hx : x ∈ registrationsOf id notes) (hy : y ∈ registrationsOf id' notes')
    (hseq : x.seq = y.seq) : x.command = y.command := by
  obtain ⟨p, -, hmarks⟩ := h.marks
  obtain ⟨q, -, hmarks'⟩ := h'.marks
  have he := hmarks.encoded hx
  have he' := hmarks'.encoded hy
  rw [hconfig, hseq, he'] at he
  exact (Except.ok.inj he).symm

/-- **Both ways perform the same operation.** Through a service with the same configuration the
operation of the request is the one that was asked for. It is performed by one call, and the code
of what this call has come to is brought back and printed. Without the service it is performed by
one call, too, and the code of what this call has come to is printed. Either way what is sent to the
daemon is the command of the operation with the prefix of the configuration, and it is the same
command if it has the same number; and where both calls come to the same, so do the results. -/
theorem performRemote_performDirect {s : Stack} {op : Operation}
    (hbody : (Utf8.ofString op.writeBody).length ≤ Http.bodyLimit)
    (hservice : sh.service = some s)
    (hsocket : sh.files.socketAt config.service.socketPath = .listening)
    (hproper : s.Proper) (hconfig : s.config.daemon = config.daemon) (patience : Nat) :
    (∀ view, Http.handle view (Call.perform op).request = .perform op) ∧
    (sh.serviceSim s).setup.config = config.daemon ∧
    ∃ w₁ code₁ id₁ notes₁, Performed (sh.serviceSim s) op patience w₁ code₁ id₁ notes₁ ∧
      Stack.Proper { s with sim := w₁ } ∧
      sh.call config (.perform op) patience = (sh.beside { s with sim := w₁ }, code₁.map .ok) ∧
      sh.performRemote config op patience =
        (sh.beside { s with sim := w₁ }, code₁.elim .killed (Cli.operationResult op)) ∧
      ∀ sim, sh.connect config = some sim → sim.setup.config = config.daemon ∧
        ∃ w₂ code₂ id₂ notes₂, Performed sim op patience w₂ code₂ id₂ notes₂ ∧
          sh.performDirect config op patience =
            ({ sh with received := w₂.received },
              code₂.elim .killed (Cli.operationResult op)) ∧
          (∀ x ∈ registrationsOf id₁ notes₁, ∀ y ∈ registrationsOf id₂ notes₂, x.seq = y.seq →
            x.command = y.command) ∧
          ∀ result, w₁.state.phase? id₁ = some (.finished result) →
            w₂.state.phase? id₂ = some (.finished result) →
            (sh.performRemote config op patience).2 = (sh.performDirect config op patience).2 := by
  have hsetup : (sh.serviceSim s).setup.config = config.daemon := hproper.setup.trans hconfig
  have hlinked : (sh.serviceSim s).Linked := hproper.linked
  obtain ⟨id₁, notes₁, h₁⟩ := performed hlinked op patience
  have hcall := call_perform hbody hservice hsocket patience
  have hremote := performRemote_eq hbody hservice hsocket patience
  refine ⟨fun view => Http.handle_perform view hbody, hsetup, _, _, id₁, notes₁, h₁,
    ⟨(congrArg Connector.Setup.config h₁.setup).trans hproper.setup, h₁.linked⟩, hcall, hremote,
    fun sim hsim => ?_⟩
  obtain ⟨hdirectSetup, hdirectLinked⟩ := proper_connect hsim
  obtain ⟨id₂, notes₂, h₂⟩ := performed hdirectLinked op patience
  have hdirect := performDirect_eq hsim op patience
  refine ⟨hdirectSetup, _, _, id₂, notes₂, h₂, hdirect, fun x hx y hy =>
    command_eq h₁ h₂ (hsetup.trans hdirectSetup.symm) hx hy, fun result hr hr' => ?_⟩
  have hcode₁ : ((sh.serviceSim s).performOne op patience).2 =
      some (Outcome.decode op.resultKind result).code := (h₁.code _).mpr ⟨result, hr, rfl⟩
  have hcode₂ : (sim.performOne op patience).2 =
      some (Outcome.decode op.resultKind result).code := (h₂.code _).mpr ⟨result, hr', rfl⟩
  rw [hremote, hdirect, hcode₁, hcode₂]

/-- A service beside a daemon that answers `0`, and a container with quotes and a backslash in its
path and its password. -/
theorem performRemote_performDirect_create :
    let start : Shell := {
      files := ⟨[(Files.names "/dev/socket/efs-server", .socket)]⟩
      script := some [] }
    let sh := (start.startService {}).1
    let op := Operation.createStorage "/a \"b\\" ⟨"p\"\\\x01é"⟩
    (∀ view, Http.handle view (Call.perform op).request = .perform op) ∧
      (sh.performRemote {} op 0).2 = { output := "0\n" } ∧
      (sh.performDirect {} op 0).2 = { output := "0\n" } := by
  intro start sh op
  have hsome : sh.service.isSome = true := by decide +kernel
  obtain ⟨s, hs⟩ := Option.isSome_iff_exists.mp hsome
  have hbefore : start.service = none := rfl
  obtain ⟨hproper, hconfig⟩ := proper_startService hbefore hs
  have hbody : (Utf8.ofString op.writeBody).length ≤ Http.bodyLimit := by decide +kernel
  have hsocket : sh.files.socketAt ({} : AppConfig).service.socketPath = .listening := by
    decide +kernel
  have hanswer : (sh.call {} (.perform op) 0).2.bind Except.toOption = some 0 := by decide +kernel
  have hprinted : (sh.performDirect {} op 0).2 = { output := "0\n" } := by decide +kernel
  obtain ⟨hhandle, -, w₁, code₁, id₁, notes₁, -, -, hcall, hremote, -⟩ :=
    performRemote_performDirect hbody hs hsocket hproper (congrArg _ hconfig) 0
  have hcode : code₁ = some 0 := by
    rw [hcall] at hanswer
    cases code₁ with
    | none => cases hanswer
    | some code => exact hanswer
  refine ⟨hhandle, ?_, hprinted⟩
  rw [hremote, hcode]
  rfl

end Shell
end EfsControl
