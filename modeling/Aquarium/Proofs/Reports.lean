import Aquarium.Command.Standard
import Aquarium.Proofs.Sessions

/-!
# What a command reports

A command ends before a run, or with the run of its machine. `Invocation.Fails` has a rule for each
error before a run, `Invocation.Readies` says when there is a machine to run, and
`Invocation.Reports` has a rule for each way to end. There are no other ways
(`reports_or_readies`), and a command ends in one of them only (`Reports.unique`), so its exit status
and its output are read off the rules. What others do for the command, its log among it, is left
open: on standard error, messages of the log may stand between what the command says itself.
-/

namespace Aquarium

namespace Session

/-! ## The end of a run -/

theorem conclude_halted (session : Session) (final : Machine) :
    session.conclude .halted final =
      reportOf session.library session.settings 0
        (final.output.text ++ "\n" ++ if session.dump then String.join final.snapshot else "") []
        (session.messages ++ traceMessages final ++ [countMessage "halted" final]) :=
  rfl

/-- A run that ends in any other way leaves what it has written, and an error. -/
theorem conclude_of_ne_halted {session : Session} {stop : Stop} (other : stop ≠ .halted)
    (uncancelled : stop ≠ .cancelled) (final : Machine) :
    session.conclude stop final =
      reportOf session.library session.settings 1 final.output.text
        (diagnosis session.library session.settings.debug stop.isFault
          (stop.layers.map Utf8.ofString) (some final))
        (session.messages ++ traceMessages final) := by
  cases stop with
  | halted => exact absurd rfl other
  | cancelled => exact absurd rfl uncancelled
  | limitReached => rfl
  | failed site failure => rfl
  | notRunning status => rfl
  | stuck => rfl

theorem finish?_eq_some_iff {session : Session} {turns : Nat} {report : Report} :
    session.finish? turns = some report ↔
      ∃ stop final, session.machine.run false turns = .stopped stop final ∧ stop ≠ .stuck ∧
        report = session.conclude stop final := by
  unfold finish?
  cases session.machine.run false turns with
  | going head => simp
  | stopped stop final =>
    simp only [Progress.stopped.injEq]
    constructor
    · intro reported
      refine ⟨stop, final, ⟨rfl, rfl⟩, ?_⟩
      cases stop with
      | stuck => cases reported
      | _ => exact ⟨nofun, (Option.some.inj reported).symm⟩
    · rintro ⟨_, _, ⟨rfl, rfl⟩, answered, rfl⟩
      cases stop with
      | stuck => exact absurd rfl answered
      | _ => rfl

/-- What is said about an error begins with its line, and goes on only when debugging. -/
theorem exists_diagnosis (library : Library) (debug fault : Bool) (layers : List Bytes)
    (machine : Option Machine) :
    ∃ details, (debug = false → details = []) ∧
      diagnosis library debug fault layers machine =
        (if fault then fishy else errorLine layers) :: details := by
  cases debug with
  | false => exact ⟨[], fun _ => rfl, rfl⟩
  | true => exact ⟨_, nofun, rfl⟩

/-- The line about a fault is not that of another error. -/
theorem errorLine_ne_fishy (layers : List Bytes) : errorLine layers ≠ fishy := by
  have begins : (errorLine layers).head? = some 0x45 := rfl
  intro same
  rw [same] at begins
  cases begins

theorem said_misused : (misused []).said = [Utf8.ofString usage] :=
  congrArg (fun text => [text]) (List.nil_append _)

/-- Usage is something else again. -/
theorem usage_ne_fishy : Utf8.ofString usage ≠ fishy := by
  have begins : (Utf8.ofString usage).head? = some 0x55 := by
    unfold usage
    generalize String.join (Flag.all.map Flag.usage) = purposes
    unfold Utf8.ofString Utf8.encodeAll
    rw [String.toList_append, List.flatMap_append]
    rfl
  intro same
  rw [same] at begins
  cases begins

end Session

/-! ## Ways to end -/

open Session

namespace Invocation

/-- The configuration, if one is asked for, loads and gives these settings. -/
def Configures (invocation : Invocation) (settings : Settings) : Prop :=
  invocation.configured = (none, settings)

/-- The log file, if one is asked for, can be opened when it comes to that. -/
def Logs (invocation : Invocation) : Prop :=
  ∀ settings script, invocation.Configures settings → invocation.reckoning.rest = [script] →
    ∃ tree, invocation.opened settings = .ok tree

/-- The configuration loads, there is one argument, and the log has been opened, which leaves this
tree to find the script of that name in. -/
structure Names (invocation : Invocation) (settings : Settings) (tree : FileTree)
    (script : Bytes) : Prop where
  configures : invocation.Configures settings
  alone : invocation.reckoning.rest = [script]
  logs : invocation.opened settings = .ok tree

/-- The configuration and the script load. -/
structure Loads (invocation : Invocation) (settings : Settings) (tree : FileTree) (script : Bytes)
    (box : CodeBox) : Prop where
  names : invocation.Names settings tree script
  loaded : tree.loadScript script = .ok box

/-- The messages about a script that has been loaded to be run. -/
def loadMessages (invocation : Invocation) (settings : Settings) (script : Bytes)
    (box : CodeBox) : List Message :=
  loadedMessage script box :: terminalMessages settings invocation.terminal

/-- How a command fails before a run: with which settings, what there is to say, and the messages
for its log up to there. -/
inductive Fails (invocation : Invocation) : Settings → List Bytes → List Message → Prop where
  | configuration {settings : Settings} {problem : ConfigurationProblem}
      (failed : invocation.configured = (some problem, settings)) :
      Fails invocation settings (problem.layers invocation.request.config) []
  | script {settings : Settings} {tree : FileTree} {script : Bytes} {problem : ScriptProblem}
      (names : invocation.Names settings tree script)
      (failed : tree.loadScript script = .error problem) :
      Fails invocation settings (problem.layers script) []
  | input {settings : Settings} {tree : FileTree} {script : Bytes} {box : CodeBox} {path : Bytes}
      {earlier later : List Bytes} {problem : FileProblem}
      (loads : invocation.Loads settings tree script box)
      (runs : invocation.request.list = false)
      (files : invocation.request.inputs = earlier ++ path :: later)
      (failed : tree.lookup path = .error problem) (opens : ∀ other ∈ later, tree.Opens other) :
      Fails invocation settings [Utf8.ofString "input", FileTree.openMessage path problem]
        (invocation.loadMessages settings script box)
  | limit {settings : Settings} {tree : FileTree} {script : Bytes} {box : CodeBox}
      (loads : invocation.Loads settings tree script box)
      (runs : invocation.request.list = false)
      (opens : ∀ path ∈ invocation.request.inputs, tree.Opens path)
      (negative : settings.maxSteps < 0) :
      Fails invocation settings
        [Utf8.ofString (SetupProblem.negativeLimit settings.maxSteps).message]
        (invocation.loadMessages settings script box)

/-- A command gets as far as having a machine to run. -/
inductive Readies (invocation : Invocation) : Session → Prop where
  | intro {settings : Settings} {tree : FileTree} {script : Bytes} {box : CodeBox}
      {readers : List Reader} {machine : Machine}
      (loads : invocation.Loads settings tree script box)
      (runs : invocation.request.list = false)
      (opens : ∀ path ∈ invocation.request.inputs, tree.Opens path)
      (allowed : 0 ≤ settings.maxSteps)
      (reads : readersOf tree invocation.appended invocation.request.inputs.reverse = .ok readers)
      (created : Machine.create (some box) (.ofSeed invocation.seed)
        (adjustments invocation.library invocation.request settings invocation.stdin readers) =
          .ok machine) :
      Readies invocation
        { machine, library := invocation.library, settings, dump := invocation.request.dump,
          messages := invocation.loadMessages settings script box }

/-- The program of a command halts in a session, and leaves a machine. -/
structure Halts (invocation : Invocation) (session : Session) (final : Machine) : Prop where
  readies : invocation.Readies session
  ends : session.machine.Ends .halted final

/-- The run of a command ends with an error in a session, and leaves a machine. -/
structure Errs (invocation : Invocation) (session : Session) (stop : Stop) (final : Machine) :
    Prop where
  readies : invocation.Readies session
  ends : session.machine.Ends stop final
  other : stop ≠ .halted

/-- What a command reports, by how it ends. -/
inductive Reports (invocation : Invocation) : Report → Prop where
  | misused {settings : Settings} (configures : invocation.Configures settings)
      (other : invocation.reckoning.rest.length ≠ 1) : Reports invocation (misused [])
  | failed {settings : Settings} {layers : List Bytes} {messages : List Message}
      (fails : invocation.Fails settings layers messages) :
      Reports invocation (refused invocation.library settings layers messages)
  | listed {settings : Settings} {tree : FileTree} {script : Bytes} {box : CodeBox}
      (loads : invocation.Loads settings tree script box)
      (wanted : invocation.request.list = true) :
      Reports invocation (reportOf invocation.library settings 0 (String.join box.listing) []
        [loadedMessage script box])
  | halted {session : Session} {final : Machine} (halts : invocation.Halts session final) :
      Reports invocation (session.conclude .halted final)
  | erred {session : Session} {stop : Stop} {final : Machine}
      (errs : invocation.Errs session stop final) : Reports invocation (session.conclude stop final)

variable {invocation : Invocation} {settings : Settings} {tree : FileTree} {script : Bytes}
  {box : CodeBox} {layers : List Bytes} {messages : List Message} {session : Session} {stop : Stop}
  {final : Machine}

theorem Loads.present (loads : invocation.Loads settings tree script box) :
    ¬(box.height = 0 ∨ box.width = 0) :=
  FileTree.present_of_loadScript loads.loaded

/-- A machine of a command answers, so its run does not get stuck. -/
theorem Readies.ne_stuck (readies : invocation.Readies session)
    (ends : session.machine.Ends stop final) : stop ≠ .stuck := by
  obtain ⟨_, _, _, _, reads, created⟩ := readies
  exact ends.ne_stuck_of_answers (answers_create (ending_of_readersOf reads) created)

theorem Readies.dump (readies : invocation.Readies session) :
    session.dump = invocation.request.dump := by
  cases readies
  rfl

theorem Errs.conclude (errs : invocation.Errs session stop final) :
    session.conclude stop final =
      reportOf session.library session.settings 1 final.output.text
        (diagnosis session.library session.settings.debug stop.isFault
          (stop.layers.map Utf8.ofString) (some final))
        (session.messages ++ traceMessages final) :=
  conclude_of_ne_halted errs.other errs.ends.ne_cancelled final

/-! ## Preparing a command -/

/-- A configuration that fails ends the command. -/
theorem prepare_of_unconfigured (readable : invocation.reckoning.problem = none)
    {problem : ConfigurationProblem} (failed : invocation.configured = (some problem, settings)) :
    invocation.prepare = .error
      (refused invocation.library settings (problem.layers invocation.request.config) []) := by
  simp only [prepare, readable, failed]

/-- Any number of arguments but one is wrong usage. -/
theorem prepare_of_misused (readable : invocation.reckoning.problem = none)
    (configures : invocation.Configures settings)
    (other : invocation.reckoning.rest.length ≠ 1) :
    invocation.prepare = .error (misused []) := by
  unfold Configures at configures
  simp only [prepare, readable, configures]
  split
  · rename_i script alone
    rw [alone] at other
    exact absurd rfl other
  · rfl

/-- One argument and an open log leave the script to be loaded. -/
theorem prepare_of_names (readable : invocation.reckoning.problem = none)
    (names : invocation.Names settings tree script) :
    invocation.prepare = invocation.load settings tree script := by
  obtain ⟨configures, alone, logs⟩ := names
  unfold Configures at configures
  simp only [prepare, readable, configures, alone, logs]

/-- A script that is not to be listed leaves the machine to be made. -/
theorem prepare_of_loads (readable : invocation.reckoning.problem = none)
    (loads : invocation.Loads settings tree script box)
    (runs : invocation.request.list = false) :
    invocation.prepare = invocation.assemble settings tree script box := by
  rw [prepare_of_names readable loads.names, load, loads.loaded]
  simp [runs]

/-- A command that fails before a run ends with what there is to say. -/
theorem prepare_of_fails (readable : invocation.reckoning.problem = none)
    (fails : invocation.Fails settings layers messages) :
    invocation.prepare = .error (refused invocation.library settings layers messages) := by
  cases fails with
  | configuration failed => exact prepare_of_unconfigured readable failed
  | script names failed => rw [prepare_of_names readable names, load, failed]
  | input loads runs files failed opens =>
    rename_i path earlier later problem
    have reversed : invocation.request.inputs.reverse =
        later.reverse ++ path :: earlier.reverse := by simp [files]
    have unopened := readersOf_of_unopened invocation.appended
      (fun other member => opens other (List.mem_reverse.mp member)) failed earlier.reverse
    rw [prepare_of_loads readable loads runs, assemble, reversed]
    simp only [unopened]
    rfl
  | limit loads runs opens negative =>
    obtain ⟨readers, reads⟩ := exists_readersOf invocation.appended
      fun path member => opens path (List.mem_reverse.mp member)
    rw [prepare_of_loads readable loads runs, assemble]
    simp only [reads, create_of_negative loads.present negative]
    rfl

theorem prepare_of_listed (readable : invocation.reckoning.problem = none)
    (loads : invocation.Loads settings tree script box)
    (wanted : invocation.request.list = true) :
    invocation.prepare = .error (reportOf invocation.library settings 0 (String.join box.listing) []
      [loadedMessage script box]) := by
  rw [prepare_of_names readable loads.names, load, loads.loaded]
  simp [wanted]

theorem prepare_of_readies (readable : invocation.reckoning.problem = none)
    (readies : invocation.Readies session) : invocation.prepare = .ok session := by
  obtain ⟨loads, runs, _, _, reads, created⟩ := readies
  rw [prepare_of_loads readable loads runs, assemble]
  simp only [reads, created]
  rfl

/-- A script that loads and is not to be listed has a machine, unless a file cannot be opened or the
limit is negative. -/
theorem reports_or_readies_of_loads (loads : invocation.Loads settings tree script box)
    (runs : invocation.request.list = false) :
    (∃ report, invocation.Reports report) ∨ ∃ session, invocation.Readies session := by
  rcases opens_or_exists_unopened tree invocation.request.inputs.reverse with
    opens | ⟨before, path, after, problem, files, opens, failed⟩
  · have inputs : ∀ path ∈ invocation.request.inputs, tree.Opens path :=
      fun path member => opens path (List.mem_reverse.mpr member)
    rcases Int.lt_or_le settings.maxSteps 0 with negative | allowed
    · exact .inl ⟨_, .failed (.limit loads runs inputs negative)⟩
    · obtain ⟨readers, reads⟩ := exists_readersOf invocation.appended opens
      obtain ⟨machine, created⟩ := exists_machine loads.present allowed
      exact .inr ⟨_, .intro loads runs inputs allowed reads created⟩
  · have split : invocation.request.inputs = after.reverse ++ path :: before.reverse := by
      rw [← List.reverse_inj, files]
      simp
    exact .inl ⟨_, .failed (.input loads runs split failed
      fun other member => opens other (List.mem_reverse.mp member))⟩

theorem reports_or_readies_of_names (names : invocation.Names settings tree script) :
    (∃ report, invocation.Reports report) ∨ ∃ session, invocation.Readies session := by
  cases loaded : tree.loadScript script with
  | error problem => exact .inl ⟨_, .failed (.script names loaded)⟩
  | ok box =>
    have loads : invocation.Loads settings tree script box := ⟨names, loaded⟩
    cases listing : invocation.request.list with
    | true => exact .inl ⟨_, .listed loads listing⟩
    | false => exact reports_or_readies_of_loads loads listing

/-- There are no other ways: a command whose log can be opened has something to report, or a machine
to run. -/
theorem reports_or_readies (logs : invocation.Logs) :
    (∃ report, invocation.Reports report) ∨ ∃ session, invocation.Readies session := by
  rcases configures : invocation.configured with ⟨_ | problem, settings⟩
  · by_cases alone : invocation.reckoning.rest.length = 1
    · obtain ⟨script, alone⟩ := List.length_eq_one_iff.mp alone
      obtain ⟨tree, opened⟩ := logs settings script configures alone
      exact reports_or_readies_of_names ⟨configures, alone, opened⟩
    · exact .inl ⟨_, .misused configures alone⟩
  · exact .inl ⟨_, .failed (.configuration configures)⟩

/-! ## Reports -/

theorem report?_of_error {report : Report} (prepared : invocation.prepare = .error report)
    (turns : Nat) : invocation.report? turns = some report := by
  simp only [report?, prepared]

theorem report?_of_ok (prepared : invocation.prepare = .ok session)
    (turns : Nat) : invocation.report? turns = session.finish? turns := by
  simp only [report?, prepared]

/-- More turns change nothing about a report. -/
theorem report?_unique {few many : Nat} {report other : Report}
    (early : invocation.report? few = some report) (late : invocation.report? many = some other) :
    report = other := by
  cases prepared : invocation.prepare with
  | error own =>
    rw [report?_of_error prepared] at early late
    exact Option.some.inj (early.symm.trans late)
  | ok session =>
    rw [report?_of_ok prepared, finish?_eq_some_iff] at early late
    obtain ⟨stop, final, stopped, _, rfl⟩ := early
    obtain ⟨reason, last, again, _, rfl⟩ := late
    obtain ⟨rfl, rfl⟩ := Machine.Ends.unique ⟨few, stopped⟩ ⟨many, again⟩
    rfl

/-- A run that ends decides the report. -/
theorem reports_of_ends (readies : invocation.Readies session)
    (ends : session.machine.Ends stop final) :
    invocation.Reports (session.conclude stop final) := by
  by_cases halted : stop = .halted
  · subst halted
    exact .halted ⟨readies, ends⟩
  · exact .erred ⟨readies, ends, halted⟩

theorem exists_report?_of_ends (readable : invocation.reckoning.problem = none)
    (readies : invocation.Readies session) (ends : session.machine.Ends stop final) :
    ∃ turns, invocation.report? turns = some (session.conclude stop final) := by
  have answered := readies.ne_stuck ends
  obtain ⟨turns, stopped⟩ := ends
  refine ⟨turns, ?_⟩
  rw [report?_of_ok (prepare_of_readies readable readies), finish?_eq_some_iff]
  exact ⟨stop, final, stopped, answered, rfl⟩

/-- What a command reports by how it ends, it reports after enough turns. -/
theorem exists_report?_of_reports (readable : invocation.reckoning.problem = none)
    {report : Report} (reports : invocation.Reports report) :
    ∃ turns, invocation.report? turns = some report := by
  cases reports with
  | misused configures other =>
    exact ⟨0, report?_of_error (prepare_of_misused readable configures other) 0⟩
  | failed fails => exact ⟨0, report?_of_error (prepare_of_fails readable fails) 0⟩
  | listed loads wanted => exact ⟨0, report?_of_error (prepare_of_listed readable loads wanted) 0⟩
  | halted halts => exact exists_report?_of_ends readable halts.readies halts.ends
  | erred errs => exact exists_report?_of_ends readable errs.readies errs.ends

/-- A command ends in one way only. -/
theorem Reports.unique (readable : invocation.reckoning.problem = none) {report other : Report}
    (here : invocation.Reports report) (there : invocation.Reports other) : report = other := by
  obtain ⟨few, early⟩ := exists_report?_of_reports readable here
  obtain ⟨many, late⟩ := exists_report?_of_reports readable there
  exact report?_unique early late

/-- What a command reports is told by how it ends. -/
theorem reports_of_report? (readable : invocation.reckoning.problem = none)
    (logs : invocation.Logs) {turns : Nat} {report : Report}
    (reported : invocation.report? turns = some report) : invocation.Reports report := by
  rcases reports_or_readies logs with ⟨other, reports⟩ | ⟨session, readies⟩
  · obtain ⟨many, late⟩ := exists_report?_of_reports readable reports
    exact report?_unique reported late ▸ reports
  · rw [report?_of_ok (prepare_of_readies readable readies), finish?_eq_some_iff] at reported
    obtain ⟨stop, final, stopped, _, rfl⟩ := reported
    exact reports_of_ends readies ⟨turns, stopped⟩

/-- There is a report, after enough turns, exactly if the run ends or there is none. -/
theorem exists_report?_iff (readable : invocation.reckoning.problem = none)
    (logs : invocation.Logs) :
    (∃ turns report, invocation.report? turns = some report) ↔
      ∀ session, invocation.Readies session → ∃ stop final, session.machine.Ends stop final := by
  constructor
  · rintro ⟨turns, report, reported⟩ session readies
    rw [report?_of_ok (prepare_of_readies readable readies), finish?_eq_some_iff] at reported
    obtain ⟨stop, final, stopped, _⟩ := reported
    exact ⟨stop, final, turns, stopped⟩
  · intro ending
    rcases reports_or_readies logs with ⟨report, reports⟩ | ⟨session, readies⟩
    · obtain ⟨turns, reported⟩ := exists_report?_of_reports readable reports
      exact ⟨turns, report, reported⟩
    · obtain ⟨stop, final, ends⟩ := ending session readies
      obtain ⟨turns, reported⟩ := exists_report?_of_ends readable readies ends
      exact ⟨turns, _, reported⟩

/-! ## Status, output and errors -/

/-- A command succeeds: its script is listed, or its program halts. -/
def Succeeds (invocation : Invocation) : Prop :=
  ∃ settings tree script box, invocation.Loads settings tree script box ∧
    (invocation.request.list = true ∨
      (∀ path ∈ invocation.request.inputs, tree.Opens path) ∧ 0 ≤ settings.maxSteps ∧
        ∃ session final, invocation.Halts session final)

theorem succeeds_of_halts (halts : invocation.Halts session final) : invocation.Succeeds := by
  have again := halts
  obtain ⟨⟨loads, _, opens, allowed, _, _⟩, _⟩ := halts
  exact ⟨_, _, _, _, loads, .inr ⟨opens, allowed, _, final, again⟩⟩

variable {report : Report}

/-- The exit status is 2 for wrong usage. -/
theorem Reports.status_eq_two_iff (readable : invocation.reckoning.problem = none)
    (reports : invocation.Reports report) :
    report.status = 2 ↔
      (∃ settings, invocation.Configures settings) ∧ invocation.reckoning.rest.length ≠ 1 := by
  constructor
  · intro status
    cases reports with
    | misused configures other => exact ⟨⟨_, configures⟩, other⟩
    | failed | listed | halted => cases status
    | erred errs =>
      rw [errs.conclude] at status
      cases status
  · rintro ⟨⟨settings, configures⟩, other⟩
    rw [reports.unique readable (.misused configures other)]
    rfl

/-- The exit status is 0 for a command that succeeds. -/
theorem Reports.status_eq_zero_iff (readable : invocation.reckoning.problem = none)
    (reports : invocation.Reports report) : report.status = 0 ↔ invocation.Succeeds := by
  constructor
  · intro status
    cases reports with
    | listed loads wanted => exact ⟨_, _, _, _, loads, .inl wanted⟩
    | halted halts => exact succeeds_of_halts halts
    | misused | failed => cases status
    | erred errs =>
      rw [errs.conclude] at status
      cases status
  · rintro ⟨settings, tree, script, box, loads, wanted | ⟨_, _, session, final, halts⟩⟩
    · rw [reports.unique readable (.listed loads wanted)]
      rfl
    · rw [reports.unique readable (.halted halts)]
      rfl

/-- The exit status is 1 for a command that fails before its run or in it. -/
theorem Reports.status_eq_one_iff (readable : invocation.reckoning.problem = none)
    (reports : invocation.Reports report) :
    report.status = 1 ↔ (∃ settings layers messages, invocation.Fails settings layers messages) ∨
      ∃ session stop final, invocation.Errs session stop final := by
  constructor
  · intro status
    cases reports with
    | failed fails => exact .inl ⟨_, _, _, fails⟩
    | erred errs => exact .inr ⟨_, _, _, errs⟩
    | misused | listed | halted => cases status
  · rintro (⟨settings, layers, messages, fails⟩ | ⟨session, stop, final, errs⟩)
    · rw [reports.unique readable (.failed fails)]
      rfl
    · rw [reports.unique readable (.erred errs), errs.conclude]
      rfl

/-- There is no other exit status. -/
theorem Reports.status_eq_one (reports : invocation.Reports report) (notTwo : report.status ≠ 2)
    (notZero : report.status ≠ 0) : report.status = 1 := by
  cases reports with
  | misused => exact absurd rfl notTwo
  | failed => rfl
  | erred errs =>
    rw [errs.conclude]
    rfl
  | listed | halted => exact absurd rfl notZero

/-- What is said first is that the program is at fault, exactly if it is. -/
theorem Reports.fishy_iff (readable : invocation.reckoning.problem = none)
    (reports : invocation.Reports report) :
    report.said.head? = some fishy ↔
      ∃ session stop final, invocation.Errs session stop final ∧ stop.isFault = true := by
  constructor
  · intro first
    cases reports with
    | misused =>
      rw [said_misused] at first
      exact absurd (Option.some.inj first) usage_ne_fishy
    | failed fails => exact absurd (Option.some.inj first) (errorLine_ne_fishy _)
    | listed | halted => cases first
    | @erred session stop final errs =>
      refine ⟨session, stop, final, errs, ?_⟩
      rw [errs.conclude] at first
      cases fault : stop.isFault with
      | true => rfl
      | false =>
        rw [fault] at first
        exact absurd (Option.some.inj first) (errorLine_ne_fishy _)
  · rintro ⟨session, stop, final, errs, fault⟩
    rw [reports.unique readable (.erred errs), errs.conclude, fault]
    rfl

/-- An error before a run is named in full. -/
theorem Reports.said_of_fails (readable : invocation.reckoning.problem = none)
    (reports : invocation.Reports report) (fails : invocation.Fails settings layers messages) :
    ∃ details, (settings.debug = false → details = []) ∧
      report.said = errorLine layers :: details := by
  rw [reports.unique readable (.failed fails)]
  exact exists_diagnosis invocation.library settings.debug false layers none

/-- An error in a run is named in full, unless the program is at fault. -/
theorem Reports.said_of_errs (readable : invocation.reckoning.problem = none)
    (reports : invocation.Reports report)
    (errs : invocation.Errs session stop final) :
    ∃ details, (session.settings.debug = false → details = []) ∧
      report.said =
        (if stop.isFault then fishy else errorLine (stop.layers.map Utf8.ofString)) :: details := by
  rw [reports.unique readable (.erred errs), errs.conclude]
  exact exists_diagnosis ..

/-- What is written to standard output, by how the command ends. -/
theorem Reports.stdout (readable : invocation.reckoning.problem = none)
    (reports : invocation.Reports report) :
    (∀ settings tree script box, invocation.Loads settings tree script box →
      invocation.request.list = true → report.stdout = String.join box.listing) ∧
    (∀ session final, invocation.Halts session final →
      report.stdout = final.output.text ++ "\n" ++
        if invocation.request.dump then String.join final.snapshot else "") ∧
    (∀ session stop final, invocation.Errs session stop final →
      report.stdout = final.output.text) ∧
    (∀ settings layers messages, invocation.Fails settings layers messages →
      report.stdout = "") ∧
    (report.status = 2 → report.stdout = "") := by
  refine ⟨?listed, ?halted, ?erred, ?failed, ?misused⟩
  case listed =>
    intro settings tree script box loads wanted
    rw [reports.unique readable (.listed loads wanted)]
    rfl
  case halted =>
    intro session final halts
    rw [reports.unique readable (.halted halts), conclude_halted, halts.readies.dump]
    rfl
  case erred =>
    intro session stop final errs
    rw [reports.unique readable (.erred errs), errs.conclude]
    rfl
  case failed =>
    intro settings layers messages fails
    rw [reports.unique readable (.failed fails)]
    rfl
  case misused =>
    intro status
    obtain ⟨⟨settings, configures⟩, other⟩ := (reports.status_eq_two_iff readable).mp status
    rw [reports.unique readable (.misused configures other)]
    rfl

/-- How a command ends tells its exit status and what it writes and says. If its flags can be read
and its log can be opened, it ends exactly if its run does or there is none. The exit status is 2 if
the configuration loads and there is not one script, 0 if configuration and script load and the
script is listed, or the files of input open, the limit is not negative and the program halts, and
otherwise 1. Standard output holds the listing, or what the program has written, and after that a
line feed and the snapshot, if one is wanted, only if the program halts; without a listing and a run
it holds nothing. On standard error the command says that the program is at fault exactly if the run
ended with a fault, and names the error for every other exit with status 1; when not debugging that
is all, and an exit with status 0 says nothing. Whatever else is seen there are messages of its
log. -/
theorem command_ends_as_reported (invocation : Invocation)
    (readable : invocation.reckoning.problem = none) (logs : invocation.Logs) :
    ((∃ turns report, invocation.report? turns = some report) ↔
      ∀ session, invocation.Readies session → ∃ stop final, session.machine.Ends stop final) ∧
    ∀ turns report, invocation.report? turns = some report →
      (report.status = 2 ↔
        (∃ settings, invocation.Configures settings) ∧ invocation.reckoning.rest.length ≠ 1) ∧
      (report.status = 0 ↔
        ∃ settings tree script box, invocation.Loads settings tree script box ∧
          (invocation.request.list = true ∨
            (∀ path ∈ invocation.request.inputs, tree.Opens path) ∧ 0 ≤ settings.maxSteps ∧
              ∃ session final, invocation.Halts session final)) ∧
      (report.status ≠ 2 → report.status ≠ 0 → report.status = 1) ∧
      (report.status = 1 ↔
        (∃ settings layers messages, invocation.Fails settings layers messages) ∨
          ∃ session stop final, invocation.Errs session stop final) ∧
      ((∀ settings tree script box, invocation.Loads settings tree script box →
          invocation.request.list = true → report.stdout = String.join box.listing) ∧
        (∀ session final, invocation.Halts session final →
          report.stdout = final.output.text ++ "\n" ++
            if invocation.request.dump then String.join final.snapshot else "") ∧
        (∀ session stop final, invocation.Errs session stop final →
          report.stdout = final.output.text) ∧
        (∀ settings layers messages, invocation.Fails settings layers messages →
          report.stdout = "") ∧
        (report.status = 2 → report.stdout = "")) ∧
      ∀ seen, report.Shows seen →
        ((seen.filterMap Utterance.said?).head? = some fishy ↔
          ∃ session stop final, invocation.Errs session stop final ∧ stop.isFault = true) ∧
        (∀ session stop final, invocation.Errs session stop final →
          ∃ details, (session.settings.debug = false → details = []) ∧
            seen.filterMap Utterance.said? =
              (if stop.isFault then fishy else errorLine (stop.layers.map Utf8.ofString)) ::
                details) ∧
        (∀ settings layers messages, invocation.Fails settings layers messages →
          ∃ details, (settings.debug = false → details = []) ∧
            seen.filterMap Utterance.said? = errorLine layers :: details) ∧
        (report.status = 2 → seen.filterMap Utterance.said? = [Utf8.ofString usage]) ∧
        (report.status = 0 → seen.filterMap Utterance.said? = []) := by
  refine ⟨exists_report?_iff readable logs, fun turns report reported => ?_⟩
  have reports := reports_of_report? readable logs reported
  refine ⟨reports.status_eq_two_iff readable, reports.status_eq_zero_iff readable,
    reports.status_eq_one, reports.status_eq_one_iff readable, reports.stdout readable,
    fun seen shows => ?_⟩
  rw [shows.said]
  refine ⟨reports.fishy_iff readable, fun _ _ _ => reports.said_of_errs readable,
    fun _ _ _ => reports.said_of_fails readable, ?misused, ?quiet⟩
  case misused =>
    intro status
    obtain ⟨⟨settings, configures⟩, other⟩ := (reports.status_eq_two_iff readable).mp status
    rw [reports.unique readable (.misused configures other), said_misused]
  case quiet =>
    intro status
    cases reports with
    | listed | halted => rfl
    | misused | failed => cases status
    | erred errs =>
      rw [errs.conclude] at status
      cases status

/-- A command whose program writes a number and then adds with one number too few. A snapshot is
wanted, but not taken. On standard error a message of the log is seen before what the command
says. -/
theorem command_of_faulty_addition :
    ∃ (invocation : Invocation) (message : Message),
      invocation =
        ⟨["-dump", "-verbose", "1", "-input", "later", "script"].map Utf8.ofString, .standard,
          ⟨[], [(Utf8.ofString "script", .file (Utf8.ofString "1n2+")),
            (Utf8.ofString "later", .file [])]⟩, [], 0, none, fun _ => []⟩ ∧
      message = ⟨"fish", .info, Utf8.ofString "loaded script: 1 rows, 4 columns"⟩ ∧
      invocation.report? 4 = some ⟨1, "1", [fishy], [message], false⟩ ∧
      (∀ report, invocation.report? 4 = some report →
        report.Shows [.logged message, .said fishy]) ∧
      ∃ session stop final, invocation.Errs session stop final ∧ stop.isFault = true ∧
        final.output.text = "1" := by
  generalize known : (⟨["-dump", "-verbose", "1", "-input", "later", "script"].map Utf8.ofString,
    .standard, ⟨[], [(Utf8.ofString "script", .file (Utf8.ofString "1n2+")),
      (Utf8.ofString "later", .file [])]⟩, [], 0, none, fun _ => []⟩ : Invocation) = invocation
  generalize told : (⟨"fish", .info, Utf8.ofString "loaded script: 1 rows, 4 columns"⟩ : Message) =
    message
  obtain ⟨readable, unlogged, reported⟩ :
      invocation.reckoning.problem = none ∧ invocation.configured.2.log = [] ∧
        invocation.report? 4 = some ⟨1, "1", [fishy], [message], false⟩ := by
    subst known told
    decide +kernel
  have logs : invocation.Logs := by
    intro settings script configures _
    rw [configures] at unlogged
    exact ⟨invocation.tree, if_pos unlogged⟩
  have shows : Report.Shows ⟨1, "1", [fishy], [message], false⟩ [.logged message, .said fishy] :=
    ⟨rfl, List.Sublist.refl _⟩
  obtain ⟨_, ended⟩ := command_ends_as_reported invocation readable logs
  obtain ⟨_, _, _, _, ⟨_, _, written, _⟩, said⟩ := ended _ _ reported
  obtain ⟨session, stop, final, errs, fault⟩ := (said _ shows).1.mp rfl
  refine ⟨invocation, message, rfl, rfl, reported, ?_, session, stop, final, errs, fault,
    (written session stop final errs).symm⟩
  intro report again
  rw [reported] at again
  cases again
  exact shows

end Invocation

end Aquarium
