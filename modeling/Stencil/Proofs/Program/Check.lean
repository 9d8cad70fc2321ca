import Stencil.Proofs.Program.Run

/-!
# Command lines that only check

A job that only checks compiles its template and stops there.

* `Job.steps_of_check`: what such a job does, on every host.
* `Job.compile_congr`: the files that compiling a job needs are the only ones it touches.
* `Job.CompilesTo.congr`, `Job.CompileFails.congr`: jobs that compile alike.
* `runProgram_check`: what a command line that only checks tells about one that goes on.
-/

namespace Stencil

def Job.Needs (job : Job) (name : String) : Prop :=
  name = job.template ∨ job.dialect = some name

/-! ## On every host -/

section

variable {m : Type → Type} [Monad m] {host host' : Host m}

theorem loadText_congr {role : FileRole} {name : String}
    (h : host.readText name = host'.readText name) :
    @loadText m _ host role name = @loadText m _ host' role name := by
  unfold loadText
  rw [h]

theorem Dialect.load_congr [DocumentReader] {name : Option String}
    (h : ∀ file, name = some file → host.readText file = host'.readText file) :
    @Dialect.load _ m _ host name = @Dialect.load _ m _ host' name := by
  cases name with
  | none => rfl
  | some file =>
    unfold Dialect.load
    dsimp only
    rw [loadText_congr (h file rfl)]

variable [PatternCompiler] [DocumentReader]

theorem Job.steps_of_check [Host m] {job : Job} (h : job.check = true) :
    (job.steps : ExceptT JobFault m Outcome) = do
      let _ ← job.compile
      return { errors := job.template ++ ": ok\n" } := by
  rw [steps, h]
  rfl

/-- **Compiling a job touches no file but those it needs**: two hosts that read these alike may
differ in all else that they do. -/
theorem Job.compile_congr {job : Job}
    (h : ∀ name, job.Needs name → host.readText name = host'.readText name) :
    @Job.compile _ _ m _ host job = @Job.compile _ _ m _ host' job := by
  unfold Job.compile
  rw [loadText_congr (h job.template (.inl rfl)),
    Dialect.load_congr fun file hFile => h file (.inr hFile)]

theorem Job.run_congr_of_check [CommandLine] {job : Job} (hCheck : job.check = true)
    (h : ∀ name, job.Needs name → host.readText name = host'.readText name) :
    @Job.run _ _ _ m _ host job = @Job.run _ _ _ m _ host' job := by
  unfold Job.run
  rw [@Job.steps_of_check m _ _ _ host job hCheck, @Job.steps_of_check m _ _ _ host' job hCheck,
    Job.compile_congr h]

end

/-! ## Jobs that compile alike -/

section

variable [DocumentReader] {read read' : String → Except String String} {job other : Job}

theorem Dialect.LoadsAs.congr {name : Option String} {d : Dialect}
    (h : ∀ file, name = some file → read' file = read file) (hLoads : LoadsAs read name d) :
    LoadsAs read' name d := by
  cases hLoads with
  | standard => exact .standard
  | file hRead hParse => exact .file ((h _ rfl).trans hRead) hParse

theorem Dialect.LoadFails.congr {name : Option String} {fault : LoadFault}
    (h : ∀ file, name = some file → read' file = read file) (hFails : LoadFails read name fault) :
    LoadFails read' name fault := by
  cases hFails with
  | unreadable hRead => exact .unreadable ((h _ rfl).trans hRead)
  | invalid hRead hParse => exact .invalid ((h _ rfl).trans hRead) hParse

variable (hTemplate : job.template = other.template) (hDialect : job.dialect = other.dialect)
  (h : ∀ name, job.Needs name → read' name = read name)

omit [DocumentReader] in
include hTemplate h in
theorem Job.read_template_congr {r : Except String String} (hRead : read job.template = r) :
    read' other.template = r :=
  hTemplate ▸ (h _ (.inl rfl)).trans hRead

include hDialect h in
theorem Job.loadsAs_dialect_congr {d : Dialect} (hLoads : Dialect.LoadsAs read job.dialect d) :
    Dialect.LoadsAs read' other.dialect d :=
  hDialect ▸ hLoads.congr fun file hFile => h file (.inr hFile)

include hDialect h in
theorem Job.loadFails_dialect_congr {fault : LoadFault}
    (hFails : Dialect.LoadFails read job.dialect fault) :
    Dialect.LoadFails read' other.dialect fault :=
  hDialect ▸ hFails.congr fun file hFile => h file (.inr hFile)

variable [PatternCompiler]

include hTemplate hDialect h

/-- Jobs with the same template and dialect compile to the same, where both files hold the
same. -/
theorem Job.CompilesTo.congr {t : Template} (hCompiles : job.CompilesTo read t) :
    other.CompilesTo read' t := by
  obtain ⟨hRead, hLoads, hRules, hCompile⟩ := hCompiles
  exact .intro (read_template_congr hTemplate h hRead) (loadsAs_dialect_congr hDialect h hLoads)
    hRules hCompile

theorem Job.CompileFails.congr {fault : JobFault} (hFails : job.CompileFails read fault) :
    other.CompileFails read' fault := by
  cases hFails with
  | source hRead =>
    rw [hTemplate]
    exact .source (read_template_congr hTemplate h hRead)
  | dialect hRead hFault =>
    exact .dialect (read_template_congr hTemplate h hRead)
      (loadFails_dialect_congr hDialect h hFault)
  | pattern hRead hLoads hRules =>
    rw [hTemplate]
    exact .pattern (read_template_congr hTemplate h hRead)
      (loadsAs_dialect_congr hDialect h hLoads) hRules
  | structural hRead hLoads hRules hCompile =>
    rw [hTemplate]
    exact .structural (read_template_congr hTemplate h hRead)
      (loadsAs_dialect_congr hDialect h hLoads) hRules hCompile

end

/-! ## Runs -/

section

variable [PatternCompiler] [DocumentReader] [CommandLine] [SystemMessages]
variable {files : FileTree} {job : Job}

theorem Job.CompilesTo.run_of_check {t : Template} (h : job.CompilesTo files.read t)
    (hCheck : job.check = true) : (job.run : StateM FileTree Outcome).run files =
      ({ errors := job.template ++ ": ok\n" }, files) := by
  refine run_of_steps ?_
  rw [job.steps_of_check hCheck]
  exact h.reads.bind_ok (.pure _)

theorem Job.CompileFails.run {fault : JobFault} (h : job.CompileFails files.read fault) :
    (job.run : StateM FileTree Outcome).run files =
      ({ exitCode := 1, errors := CommandLine.report fault.messages }, files) :=
  run_of_steps_error h.reads.bind_error

/-- **Checking predicts what goes on**, of two command lines with the same template and dialect
of which one only checks.  This one succeeds when the other gets past compiling, and else both
tell the same; it puts nothing out and leaves all files as they are, and it depends on
no file but the template and the dialect.  On hosts that read these alike it does the same,
whatever else they hold, create or write.  This holds whatever compiles patterns, reads documents
and command lines, and says why a file is refused. -/
theorem runProgram_check {checked plain : List String} {job other : Job}
    (hChecked : CommandLine.job checked = .ok job) (hCheck : job.check = true)
    (hPlain : CommandLine.job plain = .ok other)
    (hTemplate : job.template = other.template) (hDialect : job.dialect = other.dialect) :
    (∀ files : FileTree, ∃ outcome : Outcome,
      (runProgram checked : StateM FileTree Outcome).run files = (outcome, files) ∧
      outcome.output = "" ∧
      (outcome.exitCode = 0 ↔ ∃ t, Reads other.compile files (.ok t)) ∧
      (outcome.exitCode ≠ 0 → outcome.exitCode = 1 ∧
        (runProgram plain : StateM FileTree Outcome).run files = (outcome, files)) ∧
      ∀ files' : FileTree, (∀ name, job.Needs name → files'.read name = files.read name) →
        (runProgram checked : StateM FileTree Outcome).run files' = (outcome, files')) ∧
    ∀ (m : Type → Type) [Monad m] (host host' : Host m),
      (∀ name, job.Needs name → host.readText name = host'.readText name) →
        @runProgram _ _ _ m _ host checked = @runProgram _ _ _ m _ host' checked := by
  refine ⟨fun files => ?_, fun m _ host host' hHosts => ?_⟩
  · rw [runProgram_eq_run hChecked, runProgram_eq_run hPlain]
    rcases job.compilesTo_or_compileFails files.read with ⟨t, hTo⟩ | ⟨fault, hFault⟩
    · refine ⟨_, hTo.run_of_check hCheck, rfl, ?_, fun hExit => absurd rfl hExit, ?_⟩
      · exact iff_of_true rfl ⟨t, (hTo.congr hTemplate hDialect fun _ _ => rfl).reads⟩
      · exact fun files' hFiles => (hTo.congr rfl rfl hFiles).run_of_check hCheck
    · have hOther := hFault.congr hTemplate hDialect fun _ _ => rfl
      refine ⟨_, hFault.run, rfl, ?_, fun _ => ⟨rfl, hOther.run⟩, ?_⟩
      · refine iff_of_false Nat.one_ne_zero fun ⟨t, hReads⟩ => ?_
        cases hReads.symm.trans hOther.reads
      · exact fun files' hFiles => (hFault.congr rfl rfl hFiles).run
  -- on hosts the two are one computation, as it asks them for nothing but these files
  · unfold runProgram
    rw [hChecked]
    exact Job.run_congr_of_check hCheck hHosts

end

/-- Data that are missing, and a block that no one opened. -/
theorem runProgram_check_missing_data :
    let checked := ["page.txt", "--check", "-d", "who.yaml", "-o", "out/page"]
    let plain := ["page.txt"]
    let right : FileTree := { nodes := [(["page.txt"], .file "Hi <%= who[0] %>!")] }
    let wrong : FileTree := { nodes := [(["page.txt"], .file "Hi <% end %>")] }
    (∃ outcome : Outcome, outcome.exitCode = 0 ∧ outcome.output = "" ∧
      (runProgram checked : StateM FileTree Outcome).run right = (outcome, right)) ∧
    ∃ outcome : Outcome, outcome.exitCode = 1 ∧ outcome.output = "" ∧
      (runProgram checked : StateM FileTree Outcome).run wrong = (outcome, wrong) ∧
      (runProgram plain : StateM FileTree Outcome).run wrong = (outcome, wrong) := by
  intro checked plain right wrong
  let job : Job :=
    { template := "page.txt", data := some "who.yaml", output := some "out/page", check := true }
  let other : Job := { template := "page.txt" }
  have hChecked : CommandLine.job checked = .ok job := by decide +kernel
  have hPlain : CommandLine.job plain = .ok other := by decide +kernel
  obtain ⟨hRuns, -⟩ := runProgram_check hChecked rfl hPlain rfl rfl
  constructor
  · obtain ⟨outcome, hRun, hOutput, hExit, -⟩ := hRuns right
    refine ⟨outcome, hExit.mpr ?_, hOutput, hRun⟩
    have hCompile : (Template.compile .standard "Hi <%= who[0] %>!").toOption.isSome := by
      decide +kernel
    obtain ⟨t, hTemplate⟩ := Option.isSome_iff_exists.mp hCompile
    have hTo : other.CompilesTo right.read t :=
      (Job.compilesTo_iff_compile (by decide +kernel) .standard).mpr
        (Except.eq_ok_of_toOption hTemplate)
    exact ⟨t, hTo.reads⟩
  · obtain ⟨outcome, hRun, hOutput, hExit, hFails, -⟩ := hRuns wrong
    have hWrong : outcome.exitCode ≠ 0 := fun hZero => by
      have hCompile : (Template.compile .standard "Hi <% end %>").toOption.isNone := by
        decide +kernel
      obtain ⟨t, hReads⟩ := hExit.mp hZero
      have hTo : other.CompilesTo wrong.read t := Job.reads_compile_iff.mp hReads
      rw [(Job.compilesTo_iff_compile (by decide +kernel) .standard).mp hTo] at hCompile
      cases hCompile
    obtain ⟨hOne, hSame⟩ := hFails hWrong
    exact ⟨outcome, hOne, hOutput, hRun, hSame⟩

end Stencil
