import Aquarium.Command.Standard

/-!
# What a configuration file does to the settings

A file with a problem changes nothing. A file without one gives each setting that it defines to the
letter its value, unless the flag was given; every setting is decided by itself. `value?_apply` says
so for one setting, `configuration_taken_whole_or_not_at_all` for a whole load, whichever way files
are read. For the reader of TOML documents, `Library.document_standard` says that it finds the keys
and values of a file.
-/

namespace Aquarium

/-- The value of the setting that belongs to a flag. -/
def Settings.value? (settings : Settings) : Flag → Option Toml.Value
  | .seed => some (.integer settings.seed)
  | .maxSteps => some (.integer settings.maxSteps)
  | .raw => some (.boolean settings.raw)
  | .debug => some (.boolean settings.debug)
  | .verbose => some (.integer settings.verbose)
  | .log => some (.text settings.log)
  | _ => none

/-- Settings are their values and whether the seed was given. -/
theorem Settings.eq_of_value? {settings others : Settings}
    (same : ∀ flag ∈ Configuration.fields, settings.value? flag = others.value? flag)
    (given : settings.seedGiven = others.seedGiven) : settings = others := by
  simp [Configuration.fields, Settings.value?] at same
  cases settings
  cases others
  simp_all

namespace Configuration

/-- The value found for the setting that belongs to a flag. -/
def Content.value? (content : Content) : Flag → Option Toml.Value
  | .seed => some (.integer content.seed)
  | .maxSteps => some (.integer content.maxSteps)
  | .raw => some (.boolean content.raw)
  | .debug => some (.boolean content.debug)
  | .verbose => some (.integer content.verbose)
  | .log => some (.text content.log)
  | _ => none

/-! ## One setting after another -/

section Taking

variable (content : Content) (settings : Settings)

/-- To take one setting changes that one alone. -/
theorem value?_take (taken flag : Flag) :
    (take content settings taken).value? flag =
      if flag = taken then content.value? flag else settings.value? flag := by
  cases taken <;> cases flag <;> rfl

theorem seedGiven_take (taken : Flag) :
    (take content settings taken).seedGiven = (settings.seedGiven || taken = .seed) := by
  cases taken <;> simp [take]

/-- After some settings have been taken, they have the values found for them, and the others keep
their own. -/
theorem value?_foldl_take (flags : List Flag) (flag : Flag) :
    (flags.foldl (take content) settings).value? flag =
      if flag ∈ flags then content.value? flag else settings.value? flag := by
  induction flags generalizing settings with
  | nil => rfl
  | cons head rest ih =>
    rw [List.foldl_cons, ih, value?_take]
    by_cases later : flag ∈ rest
    · rw [if_pos later, if_pos (List.mem_cons_of_mem head later)]
    · rw [if_neg later]
      simp only [List.mem_cons, later, or_false]

theorem seedGiven_foldl_take (flags : List Flag) :
    (flags.foldl (take content) settings).seedGiven ↔ settings.seedGiven ∨ .seed ∈ flags := by
  induction flags generalizing settings with
  | nil => simp
  | cons head rest ih =>
    rw [List.foldl_cons, ih, seedGiven_take, List.mem_cons]
    simp only [Bool.or_eq_true, decide_eq_true_eq, or_assoc, @eq_comm _ head]

end Taking

section Applying

variable (document : Document) (given : List Flag) (settings : Settings)

/-- The settings that are taken are taken one after another. -/
theorem apply_eq_foldl :
    apply document given settings =
      (fields.filter (uses document given)).foldl (take document.content) settings :=
  List.foldl_filter.symm

theorem mem_filter_uses {flag : Flag} :
    flag ∈ fields.filter (uses document given) ↔
      flag ∈ fields ∧ document.defines flag.name ∧ flag ∉ given := by
  simp [uses]

/-- A setting has the value found for it if its name is defined and its flag was not given, and
otherwise keeps its own. -/
theorem value?_apply {flag : Flag} (setting : flag ∈ fields) :
    (apply document given settings).value? flag =
      if document.defines flag.name ∧ flag ∉ given then document.content.value? flag
      else settings.value? flag := by
  rw [apply_eq_foldl, value?_foldl_take]
  simp only [mem_filter_uses, setting, true_and]

/-- The seed counts as given if it did before or is taken. -/
theorem seedGiven_apply :
    (apply document given settings).seedGiven ↔
      settings.seedGiven ∨ document.defines Flag.seed.name ∧ .seed ∉ given := by
  have setting : Flag.seed ∈ fields := List.mem_cons_self
  rw [apply_eq_foldl, seedGiven_foldl_take]
  simp only [mem_filter_uses, setting, true_and]

/-- A setting whose flag was given keeps its value. -/
theorem value?_apply_of_mem {flag : Flag} (gave : flag ∈ given) :
    (apply document given settings).value? flag = settings.value? flag := by
  rw [apply_eq_foldl, value?_foldl_take, if_neg]
  intro taken
  obtain ⟨-, -, spared⟩ := (mem_filter_uses document given).mp taken
  exact spared gave

/-- To take the same file again changes nothing. -/
theorem apply_apply :
    apply document given (apply document given settings) = apply document given settings := by
  apply Settings.eq_of_value?
  · intro flag setting
    rw [value?_apply _ _ (apply document given settings) setting]
    split
    · next used => rw [value?_apply _ _ _ setting, if_pos used]
    · rfl
  · rw [Bool.eq_iff_iff, seedGiven_apply, seedGiven_apply, or_assoc, or_self]

end Applying

/-! ## What is found in a file -/

/-- Whether a value is of the kind that a setting has. -/
def Suits : Flag → Toml.Value → Prop
  | .seed, .integer _ => True
  | .maxSteps, .integer _ => True
  | .raw, .boolean _ => True
  | .debug, .boolean _ => True
  | .verbose, .integer _ => True
  | .log, .text _ => True
  | _, _ => False

/-- Whether all names that match a setting, in any case, stand for values of its kind. -/
def AllSuit (entries : List (String × Toml.Node)) : Prop :=
  ∀ entry ∈ entries, ∀ flag, fieldOf? entry.1 = some flag →
    ∃ value, entry.2 = .value value ∧ Suits flag value

/-- What is found tells of the keys and values of an outline: which names are defined, what those to
the letter stand for, and which keys are no settings. -/
structure Document.Reports (document : Document) (outline : Toml.Outline) : Prop where
  defines (name : String) : document.defines name ↔ ∃ node, outline.root.child? name = some node
  content {flag : Flag} (setting : flag ∈ fields) {node : Toml.Node}
    (found : outline.root.child? flag.name = some node) :
    ∃ value, node = .value value ∧ document.content.value? flag = some value
  unknown : document.unknown = outline.keys.toList.filter fun key => !isKnown key

theorem fieldOf?_name {flag : Flag} (setting : flag ∈ fields) : fieldOf? flag.name = some flag := by
  revert flag
  decide

theorem isExact_iff (name : String) : isExact name ↔ ∃ flag ∈ fields, flag.name = name := by
  simp [isExact]

/-- A value of its kind is taken for a setting, and nothing else is. -/
theorem exists_put?_iff (content : Content) (flag : Flag) (node : Toml.Node) :
    (∃ changed, content.put? flag node = some changed) ↔
      ∃ value, node = .value value ∧ Suits flag value := by
  rcases node with value | entries | last
  · cases flag <;> cases value <;> simp [Content.put?, Suits]
  · cases flag <;> simp [Content.put?]
  · cases flag <;> simp [Content.put?]

/-- What is taken is the value of that setting, and the others keep theirs. -/
theorem value?_put? {content changed : Content} {flag : Flag} {node : Toml.Node}
    (put : content.put? flag node = some changed) :
    (∃ value, node = .value value ∧ changed.value? flag = some value) ∧
      ∀ other, other ≠ flag → changed.value? other = content.value? other := by
  rcases node with value | entries | last
  · constructor
    · refine ⟨value, rfl, ?_⟩
      cases flag <;> cases value <;> cases put <;> rfl
    · intro other different
      cases flag <;> cases value <;> cases put <;> cases other <;> first | rfl | contradiction
  · cases flag <;> cases put
  · cases flag <;> cases put

/-- Entries are taken exactly if all those that match a setting have a value of its kind. -/
theorem exists_ofEntries?_iff (entries : List (String × Toml.Node)) :
    (∃ content, Content.ofEntries? entries = some content) ↔ AllSuit entries := by
  induction entries with
  | nil => simp [Content.ofEntries?, AllSuit]
  | cons entry earlier ih =>
    obtain ⟨name, node⟩ := entry
    have suits : AllSuit ((name, node) :: earlier) ↔
        AllSuit earlier ∧ ∀ flag, fieldOf? name = some flag →
          ∃ value, node = .value value ∧ Suits flag value := by
      simp only [AllSuit, List.forall_mem_cons]
      exact and_comm
    rw [suits, ← ih, Content.ofEntries?]
    cases Content.ofEntries? earlier with
    | none => simp
    | some content =>
      cases fieldOf? name with
      | none => simp
      | some flag => simp [← exists_put?_iff content]

/-- The value found for a setting is what its name to the letter stands for, if there is such a name
and all names before it are to the letter. -/
theorem value?_ofEntries? {exact others : List (String × Toml.Node)} {content : Content}
    (all : ∀ entry ∈ exact, isExact entry.1)
    (taken : Content.ofEntries? (exact ++ others) = some content) {flag : Flag}
    (setting : flag ∈ fields) {node : Toml.Node} (found : exact.lookup flag.name = some node) :
    ∃ value, node = .value value ∧ content.value? flag = some value := by
  induction exact generalizing content with
  | nil => cases found
  | cons entry earlier ih =>
    obtain ⟨name, first⟩ := entry
    obtain ⟨before, takenBefore, put⟩ := Option.bind_eq_some_iff.mp taken
    obtain ⟨⟨owner, owned, rfl⟩, rest⟩ := (List.forall_mem_cons.mp all).imp_left (isExact_iff _).mp
    rw [fieldOf?_name owned] at put
    obtain ⟨value, others⟩ := value?_put? put
    by_cases same : flag = owner
    · subst same
      rw [List.lookup_cons_self] at found
      cases found
      exact value
    · have different : flag.name ≠ owner.name := by
        intro equal
        have known := fieldOf?_name setting
        rw [equal, fieldOf?_name owned] at known
        exact same (Option.some.inj known).symm
      rw [List.lookup_cons, beq_false_of_ne different] at found
      rw [others flag same]
      exact ih rest takenBefore found

/-- A name to the letter stands for the same among the entries with such names. -/
theorem lookup_filter_isExact (entries : List (String × Toml.Node)) {name : String}
    (exact : isExact name) :
    (entries.filter fun entry => isExact entry.1).lookup name = entries.lookup name := by
  induction entries with
  | nil => rfl
  | cons entry rest ih =>
    obtain ⟨other, node⟩ := entry
    by_cases kept : isExact other
    · rw [List.filter_cons, if_pos kept, List.lookup_cons, List.lookup_cons, ih]
    · have different : name ≠ other := fun same => kept (same ▸ exact)
      rw [List.filter_cons, if_neg kept, List.lookup_cons, beq_false_of_ne different, ih]

/-- What is found in an outline tells of its keys and values. -/
theorem reports_of_ofOutline? {outline : Toml.Outline} {document : Document}
    (found : Document.ofOutline? outline = some document) : document.Reports outline := by
  rw [Document.ofOutline?, List.partition_eq_filter_filter] at found
  obtain ⟨content, taken, same⟩ := Option.bind_eq_some_iff.mp found
  cases same
  refine ⟨fun name => Option.isSome_iff_exists, fun {flag} setting {node} stands => ?_, rfl⟩
  have exact : isExact flag.name := (isExact_iff _).mpr ⟨flag, setting, rfl⟩
  refine value?_ofEntries? (fun entry member => (List.mem_filter.mp member).2) taken setting ?_
  rw [lookup_filter_isExact _ exact]
  exact stands

/-- Something is found in an outline exactly if all its names that match a setting have a value of
its kind. -/
theorem exists_ofOutline?_iff (outline : Toml.Outline) :
    (∃ document, Document.ofOutline? outline = some document) ↔ AllSuit outline.root.entries := by
  rw [Document.ofOutline?, List.partition_eq_filter_filter]
  have same (entry : String × Toml.Node) :
      entry ∈ outline.root.entries.filter (fun entry => isExact entry.1) ++
          outline.root.entries.filter (fun entry => !isExact entry.1) ↔
        entry ∈ outline.root.entries := by
    cases kept : isExact entry.1 <;> simp [kept]
  rw [AllSuit, ← forall_congr' fun entry => imp_congr_left (same entry), ← AllSuit,
    ← exists_ofEntries?_iff]
  constructor
  · rintro ⟨document, found⟩
    obtain ⟨content, taken, -⟩ := Option.bind_eq_some_iff.mp found
    exact ⟨content, taken⟩
  · rintro ⟨content, taken⟩
    exact ⟨_, Option.bind_eq_some_iff.mpr ⟨content, taken, rfl⟩⟩

end Configuration

/-- Something is found in a text as a TOML document exactly if the text has an outline in which all
names that match a setting have a value of its kind, and it tells of the keys and values of that
outline. -/
theorem Library.document_standard (text : Bytes) :
    ((∃ document, standard.document text = .ok document) ↔
      ∃ outline, Toml.read? text = some outline ∧
        Configuration.AllSuit outline.root.entries) ∧
    ∀ document, standard.document text = .ok document →
      ∃ outline, Toml.read? text = some outline ∧ document.Reports outline := by
  have found (document : Configuration.Document) : standard.document text = .ok document ↔
      ∃ outline, Toml.read? text = some outline ∧
        Configuration.Document.ofOutline? outline = some document := by
    have read : Configuration.Document.read? text = some document ↔ _ := Option.bind_eq_some_iff
    rw [← read]
    simp only [standard]
    cases Configuration.Document.read? text <;> simp
  simp only [found]
  constructor
  · constructor
    · rintro ⟨document, outline, read, taken⟩
      exact ⟨outline, read, (Configuration.exists_ofOutline?_iff outline).mp ⟨document, taken⟩⟩
    · rintro ⟨outline, read, suit⟩
      obtain ⟨document, taken⟩ := (Configuration.exists_ofOutline?_iff outline).mpr suit
      exact ⟨document, outline, read, taken⟩
  · rintro document ⟨outline, read, taken⟩
    exact ⟨outline, read, Configuration.reports_of_ofOutline? taken⟩

open Aquarium.Configuration

namespace FileTree

variable {tree : FileTree} {read : Bytes → Except Bytes Document} {name : Bytes}
  {given : List Flag} {settings after : Settings}

/-- There is no problem exactly if a file is there that can be read and whose keys are all settings.
It is then taken. -/
theorem loadConfiguration_eq_none_iff :
    tree.loadConfiguration read name given settings = (none, after) ↔
      ∃ contents document, tree.lookup name = .ok (.file contents) ∧
        read contents = .ok document ∧ document.unknown = [] ∧
        apply document given settings = after := by
  rw [loadConfiguration]
  cases tree.lookup name with
  | error problem => simp
  | ok entry =>
    cases entry with
    | directory => simp
    | file contents =>
      simp only [Except.ok.injEq, FileEntry.file.injEq, exists_and_left, exists_eq_left']
      cases read contents with
      | error reason => simp [load]
      | ok document =>
        cases unknown : document.unknown with
        | nil => simp [load, unknown]
        | cons key rest => simp [load, unknown]

/-- Loading again comes to the same. -/
theorem loadConfiguration_again {problem : Option ConfigurationProblem}
    (loaded : tree.loadConfiguration read name given settings = (problem, after)) :
    tree.loadConfiguration read name given after = (problem, after) := by
  cases problem with
  | some problem =>
    rw [loadConfiguration_eq_of_problem loaded]
    rwa [loadConfiguration_eq_of_problem loaded] at loaded
  | none =>
    obtain ⟨contents, document, found, reads, known, rfl⟩ := loadConfiguration_eq_none_iff.mp loaded
    rw [loadConfiguration_eq_none_iff]
    exact ⟨contents, document, found, reads, known, apply_apply document given settings⟩

/-- Loading a configuration file leaves all settings as they were if there is a problem with it,
which there is unless the file is there, can be read and has settings only. Otherwise each setting
has the value found for it exactly if its name is defined to the letter and its flag was not given,
and the seed counts as given exactly if it did or was taken. Given flags keep their values, and
loading again comes to the same. -/
theorem configuration_taken_whole_or_not_at_all {problem : Option ConfigurationProblem}
    (loaded : tree.loadConfiguration read name given settings = (problem, after)) :
    (problem ≠ none → after = settings) ∧
      (problem = none ↔
        ∃ contents document, tree.lookup name = .ok (.file contents) ∧
          read contents = .ok document ∧ document.unknown = []) ∧
      (problem = none → ∀ contents document, tree.lookup name = .ok (.file contents) →
        read contents = .ok document →
          (∀ flag ∈ fields, after.value? flag =
            if document.defines flag.name ∧ flag ∉ given then document.content.value? flag
            else settings.value? flag) ∧
          (after.seedGiven ↔
            settings.seedGiven ∨ document.defines Flag.seed.name ∧ .seed ∉ given)) ∧
      (∀ flag ∈ given, after.value? flag = settings.value? flag) ∧
      tree.loadConfiguration read name given after = (problem, after) := by
  refine ⟨?_, ?_, ?_, ?_, loadConfiguration_again loaded⟩
  · intro problematic
    obtain ⟨reason, rfl⟩ := Option.ne_none_iff_exists'.mp problematic
    exact loadConfiguration_eq_of_problem loaded
  · constructor
    · rintro rfl
      obtain ⟨contents, document, found, reads, known, -⟩ :=
        loadConfiguration_eq_none_iff.mp loaded
      exact ⟨contents, document, found, reads, known⟩
    · rintro ⟨contents, document, found, reads, known⟩
      have taken : tree.loadConfiguration read name given settings =
          (none, apply document given settings) :=
        loadConfiguration_eq_none_iff.mpr ⟨contents, document, found, reads, known, rfl⟩
      rw [loaded] at taken
      exact congrArg Prod.fst taken
  · rintro rfl contents document found reads
    obtain ⟨_, _, foundToo, readsToo, -, rfl⟩ := loadConfiguration_eq_none_iff.mp loaded
    cases found.symm.trans foundToo
    cases reads.symm.trans readsToo
    exact ⟨fun flag setting => value?_apply document given settings setting,
      seedGiven_apply document given settings⟩
  · intro flag gave
    cases problem with
    | some reason => rw [loadConfiguration_eq_of_problem loaded]
    | none =>
      obtain ⟨_, document, -, -, -, rfl⟩ := loadConfiguration_eq_none_iff.mp loaded
      exact value?_apply_of_mem document given settings gave

/-- A limit given on the command line stays, a name in another case is passed over, and the other
settings of the file are taken. -/
theorem limit_given_before_configuration :
    let name := Utf8.ofString "fish.toml"
    let tree := FileTree.empty.know name (.file (Utf8.ofString
      "seed = 42\nmax-steps = 1000\nraw = true\nVerbose = 2\nlog = \"fish.log\"\n"))
    let after : Settings := ⟨42, true, 10, true, false, 0, Utf8.ofString "fish.log"⟩
    tree.loadConfiguration Library.standard.document name [.maxSteps]
        ⟨0, false, 10, false, false, 0, []⟩ = (none, after) ∧
      after.value? .maxSteps = some (.integer 10) ∧
      tree.loadConfiguration Library.standard.document name [.maxSteps] after = (none, after) := by
  intro name tree after
  have loaded : tree.loadConfiguration Library.standard.document name [.maxSteps]
      ⟨0, false, 10, false, false, 0, []⟩ = (none, after) := by
    decide +kernel +zetaReduce
  obtain ⟨-, -, -, kept, again⟩ := configuration_taken_whole_or_not_at_all loaded
  exact ⟨loaded, kept .maxSteps (List.mem_singleton_self _), again⟩

end FileTree

end Aquarium
