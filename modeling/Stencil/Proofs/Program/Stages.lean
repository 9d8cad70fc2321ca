import Stencil.Files.Tree
import Stencil.Program

/-!
# The stages of a job

A job reads its template, its dialect and its data, in this order, and each stage needs those
before it.  What becomes of it is told from what is read under the names of files.

* `run_bind_of_ok`, `run_bind_of_error`, `run_liftM_bind`: how computations on a tree of files
  go on.
* `Reads`: a computation that leaves all files as they are.
* `Dialect.LoadsAs`, `Context.LoadsAs`: what a file holds, `Dialect.LoadFails` and
  `Context.LoadFails` why it does not.
* `Job.CompilesTo`, `Job.CompileFails`: the template of a job, or the first thing that is wrong
  with it (`Job.compilesTo_or_compileFails`, `Job.compilesTo_iff_compile`).
* `Job.Renders`, `Job.Fails`: the same for the output of a job (`Job.renders_or_fails`).
* `Job.CompilesTo.reads`, `Job.CompileFails.reads`: compiling a job does; it results in the
  template of the job (`Job.reads_compile_iff`).
-/

namespace Stencil

/-! ## Computations -/

section

variable {ε α β : Type} {x : ExceptT ε (StateM FileTree) α} {files after : FileTree}
  (f : α → ExceptT ε (StateM FileTree) β)

/-- A computation goes on after a result, on the files as they are then. -/
theorem run_bind_of_ok {a : α} (h : x.run files = (.ok a, after)) :
    (x >>= f).run files = (f a).run after := by
  show (ExceptT.bindCont f (x.run files).1) (x.run files).2 = _
  rw [h]
  rfl

theorem run_bind_of_error {e : ε} (h : x.run files = (.error e, after)) :
    (x >>= f).run files = (.error e, after) := by
  show (ExceptT.bindCont f (x.run files).1) (x.run files).2 = _
  rw [h]
  rfl

theorem run_stateM_bind {x : StateM FileTree α} {a : α} (f : α → StateM FileTree β)
    (h : x.run files = (a, after)) : (x >>= f).run files = (f a).run after := by
  show (f (x.run files).1).run (x.run files).2 = _
  rw [h]

theorem run_liftM_bind {x : StateM FileTree α} {a : α} (h : x.run files = (a, after)) :
    ((liftM x : ExceptT ε (StateM FileTree) α) >>= f).run files = (f a).run after :=
  run_stateM_bind (fun a => (f a).run) h

end

/-! ## Computations that only read -/

section

variable {ε α β : Type} {x : ExceptT ε (StateM FileTree) α} {files : FileTree}

/-- Whether a computation has a result on a tree of files and leaves the tree as it is. -/
def Reads (x : ExceptT ε (StateM FileTree) α) (files : FileTree) (r : Except ε α) : Prop :=
  x.run files = (r, files)

namespace Reads

theorem pure (a : α) : Reads (Pure.pure a : ExceptT ε (StateM FileTree) α) files (.ok a) := rfl

theorem throw (e : ε) : Reads (MonadExcept.throw e : ExceptT ε (StateM FileTree) α) files
    (.error e) := rfl

theorem bind_ok {f : α → ExceptT ε (StateM FileTree) β} {a : α} {r : Except ε β}
    (hx : Reads x files (.ok a)) (hf : Reads (f a) files r) : Reads (x >>= f) files r :=
  (run_bind_of_ok f hx).trans hf

theorem bind_error {f : α → ExceptT ε (StateM FileTree) β} {e : ε}
    (hx : Reads x files (.error e)) : Reads (x >>= f) files (.error e) :=
  run_bind_of_error f hx

theorem loading {x : ExceptT LoadFault (StateM FileTree) α} {r : Except LoadFault α}
    (h : Reads x files r) : Reads (loading x) files (r.mapError .load) := by
  show ((x.run files).1.mapError JobFault.load, (x.run files).2) = _
  rw [h]

theorem resulting (r : Except ε α) :
    Reads (resulting r : ExceptT ε (StateM FileTree) α) files r := rfl

end Reads

variable [SystemMessages] {role : FileRole} {name text cause : String}

theorem reads_loadText (h : files.read name = .ok text) :
    Reads (loadText role name) files (.ok text) := by
  have hRead : (Host.readText name : StateM FileTree _).run files = (_, files) :=
    congrArg (·, files) h
  rw [Reads, loadText, run_liftM_bind _ hRead]
  rfl

theorem reads_loadText_error (h : files.read name = .error cause) :
    Reads (loadText role name : ExceptT LoadFault (StateM FileTree) String) files
      (.error (.unreadable role ⟨name, cause⟩)) := by
  have hRead : (Host.readText name : StateM FileTree _).run files = (_, files) :=
    congrArg (·, files) h
  rw [Reads, loadText, run_liftM_bind _ hRead]
  rfl

end

/-! ## Files that are loaded -/

section

variable [DocumentReader] (read : String → Except String String)

/-- Whether a dialect is that of a file, or the standard one when no file is given. -/
inductive Dialect.LoadsAs : Option String → Dialect → Prop
  | standard : LoadsAs none .standard
  | file {name text : String} {d : Dialect} :
    read name = .ok text → Dialect.parse text = .ok d → LoadsAs (some name) d

inductive Dialect.LoadFails : Option String → LoadFault → Prop
  | unreadable {name cause : String} :
    read name = .error cause → LoadFails (some name) (.unreadable .dialect ⟨name, cause⟩)
  | invalid {name text cause : String} :
    read name = .ok text → Dialect.parse text = .error cause →
      LoadFails (some name) (.dialect ⟨name, cause⟩)

inductive Context.LoadsAs : Option String → Context → Prop
  | empty : LoadsAs none .empty
  | file {name text : String} {c : Context} :
    read name = .ok text → Context.parse (.ofName name) text = .ok c → LoadsAs (some name) c

inductive Context.LoadFails : Option String → LoadFault → Prop
  | unreadable {name cause : String} :
    read name = .error cause → LoadFails (some name) (.unreadable .data ⟨name, cause⟩)
  | invalid {name text : String} {fault : DataFault} :
    read name = .ok text → Context.parse (.ofName name) text = .error fault →
      LoadFails (some name) (.data name fault)

theorem Dialect.loadsAs_or_loadFails (name : Option String) :
    (∃ d, LoadsAs read name d) ∨ ∃ fault, LoadFails read name fault := by
  cases name with
  | none => exact .inl ⟨_, .standard⟩
  | some name =>
    cases hRead : read name with
    | error cause => exact .inr ⟨_, .unreadable hRead⟩
    | ok text =>
      cases hParse : Dialect.parse text with
      | error cause => exact .inr ⟨_, .invalid hRead hParse⟩
      | ok d => exact .inl ⟨d, .file hRead hParse⟩

theorem Context.loadsAs_or_loadFails (name : Option String) :
    (∃ c, LoadsAs read name c) ∨ ∃ fault, LoadFails read name fault := by
  cases name with
  | none => exact .inl ⟨_, .empty⟩
  | some name =>
    cases hRead : read name with
    | error cause => exact .inr ⟨_, .unreadable hRead⟩
    | ok text =>
      cases hParse : Context.parse (.ofName name) text with
      | error fault => exact .inr ⟨_, .invalid hRead hParse⟩
      | ok c => exact .inl ⟨c, .file hRead hParse⟩

variable {read}

theorem Dialect.LoadsAs.unique {name : Option String} {d d' : Dialect}
    (h : LoadsAs read name d) (h' : LoadsAs read name d') : d = d' := by
  cases h with
  | standard =>
    cases h'
    rfl
  | file hRead hParse =>
    cases h' with
    | file hRead' hParse' =>
      obtain rfl := Except.ok.inj (hRead.symm.trans hRead')
      exact Except.ok.inj (hParse.symm.trans hParse')

end

/-! ## Stages -/

section

variable [PatternCompiler] [DocumentReader] (read : String → Except String String)

namespace Job

variable (job : Job)

/-- Whether a job has a template: its source is read, its dialect is loaded, the patterns of
that can serve, and the source compiles. -/
inductive CompilesTo : Template → Prop
  | intro {source : String} {d : Dialect} {rules : RuleSet} {t : Template} :
    read job.template = .ok source → Dialect.LoadsAs read job.dialect d →
      RuleSet.make d = .ok rules → Template.compileWith rules source = .ok t → CompilesTo t

/-- Whether a job has no template, and the first reason for that. -/
inductive CompileFails : JobFault → Prop
  | source {cause : String} : read job.template = .error cause →
    CompileFails (.load (.unreadable .template ⟨job.template, cause⟩))
  | dialect {source : String} {fault : LoadFault} :
    read job.template = .ok source → Dialect.LoadFails read job.dialect fault →
      CompileFails (.load fault)
  | pattern {source : String} {d : Dialect} {invalid : InvalidPattern} :
    read job.template = .ok source → Dialect.LoadsAs read job.dialect d →
      RuleSet.make d = .error invalid →
        CompileFails (.template job.template source (.invalidPattern invalid))
  | structural {source : String} {d : Dialect} {rules : RuleSet} {fault : TemplateFault} :
    read job.template = .ok source → Dialect.LoadsAs read job.dialect d →
      RuleSet.make d = .ok rules → Template.compileWith rules source = .error fault →
        CompileFails (.template job.template source (.structural fault))

/-- Whether a job has an output: the template renders it for the context. -/
inductive Renders : String → Prop
  | intro {t : Template} {c : Context} :
    job.CompilesTo read t → Context.LoadsAs read job.data c → Renders (t.render c)

/-- Whether a job has no output, and the first reason for that. -/
inductive Fails : JobFault → Prop
  | compile {fault : JobFault} : job.CompileFails read fault → Fails fault
  | data {t : Template} {fault : LoadFault} :
    job.CompilesTo read t → Context.LoadFails read job.data fault → Fails (.load fault)

end Job

variable {read}

theorem Job.compilesTo_iff_compile {job : Job} {source : String} {d : Dialect} {t : Template}
    (hRead : read job.template = .ok source) (hDialect : Dialect.LoadsAs read job.dialect d) :
    job.CompilesTo read t ↔ Template.compile d source = .ok t := by
  constructor
  · rintro ⟨hRead', hDialect', hRules, hCompile⟩
    obtain rfl := Except.ok.inj (hRead.symm.trans hRead')
    obtain rfl := hDialect.unique hDialect'
    rw [Template.compile_of_make hRules, hCompile]
    rfl
  · intro h
    cases hRules : RuleSet.make d with
    | error invalid =>
      rw [Template.compile, hRules] at h
      cases h
    | ok rules =>
      rw [Template.compile_of_make hRules] at h
      cases hCompile : Template.compileWith rules source with
      | error fault =>
        rw [hCompile] at h
        cases h
      | ok t' =>
        rw [hCompile] at h
        obtain rfl := Except.ok.inj h
        exact .intro hRead hDialect hRules hCompile

variable (read)

theorem Job.compilesTo_or_compileFails (job : Job) :
    (∃ t, job.CompilesTo read t) ∨ ∃ fault, job.CompileFails read fault := by
  cases hRead : read job.template with
  | error cause => exact .inr ⟨_, .source hRead⟩
  | ok source =>
    rcases Dialect.loadsAs_or_loadFails read job.dialect with ⟨d, hDialect⟩ | ⟨fault, hFault⟩
    · cases hRules : RuleSet.make d with
      | error invalid => exact .inr ⟨_, .pattern hRead hDialect hRules⟩
      | ok rules =>
        cases hCompile : Template.compileWith rules source with
        | error fault => exact .inr ⟨_, .structural hRead hDialect hRules hCompile⟩
        | ok t => exact .inl ⟨t, .intro hRead hDialect hRules hCompile⟩
    · exact .inr ⟨_, .dialect hRead hFault⟩

/-- **A job has an output, or there is a first reason why not.** -/
theorem Job.renders_or_fails (job : Job) :
    (∃ text, job.Renders read text) ∨ ∃ fault, job.Fails read fault := by
  rcases job.compilesTo_or_compileFails read with ⟨t, hTemplate⟩ | ⟨fault, hFault⟩
  · rcases Context.loadsAs_or_loadFails read job.data with ⟨c, hContext⟩ | ⟨fault, hFault⟩
    · exact .inl ⟨_, .intro hTemplate hContext⟩
    · exact .inr ⟨_, .data hTemplate hFault⟩
  · exact .inr ⟨fault, .compile hFault⟩

end

/-! ## The stages read -/

section

variable [DocumentReader] [SystemMessages] {files : FileTree}

theorem Dialect.LoadsAs.reads {name : Option String} {d : Dialect}
    (h : LoadsAs files.read name d) : Reads (Dialect.load name) files (.ok d) := by
  cases h with
  | standard => exact .pure _
  | file hRead hParse =>
    refine (reads_loadText hRead).bind_ok ?_
    rw [hParse]
    exact .pure d

theorem Dialect.LoadFails.reads {name : Option String} {fault : LoadFault}
    (h : LoadFails files.read name fault) :
    Reads (Dialect.load name : ExceptT LoadFault (StateM FileTree) Dialect) files
      (.error fault) := by
  cases h with
  | unreadable hRead => exact (reads_loadText_error hRead).bind_error
  | invalid hRead hParse =>
    refine (reads_loadText hRead).bind_ok ?_
    rw [hParse]
    exact .throw _

theorem Context.LoadsAs.reads {name : Option String} {c : Context}
    (h : LoadsAs files.read name c) : Reads (Context.load name) files (.ok c) := by
  cases h with
  | empty => exact .pure _
  | file hRead hParse =>
    refine (reads_loadText hRead).bind_ok ?_
    rw [hParse]
    exact .pure c

theorem Context.LoadFails.reads {name : Option String} {fault : LoadFault}
    (h : LoadFails files.read name fault) :
    Reads (Context.load name : ExceptT LoadFault (StateM FileTree) Context) files
      (.error fault) := by
  cases h with
  | unreadable hRead => exact (reads_loadText_error hRead).bind_error
  | invalid hRead hParse =>
    refine (reads_loadText hRead).bind_ok ?_
    rw [hParse]
    exact .throw _

end

namespace Job

variable [PatternCompiler] [DocumentReader] [SystemMessages] {files : FileTree}
variable {job : Job} {t : Template} {fault : JobFault}

/-- **The template of a job** is what compiling it results in, and all files are left as they
are. -/
theorem CompilesTo.reads (h : job.CompilesTo files.read t) :
    Reads job.compile files (.ok t) := by
  obtain ⟨hRead, hDialect, hRules, hCompile⟩ := h
  refine (reads_loadText hRead).loading.bind_ok (hDialect.reads.loading.bind_ok ?_)
  rw [Template.compile_of_make hRules, hCompile]
  exact .resulting _

/-- **The first reason why a job has no template** is told when it is compiled, and all files
are left as they are. -/
theorem CompileFails.reads (h : job.CompileFails files.read fault) :
    Reads job.compile files (.error fault) := by
  cases h with
  | source hRead => exact (reads_loadText_error hRead).loading.bind_error
  | dialect hRead hFault =>
    exact (reads_loadText hRead).loading.bind_ok hFault.reads.loading.bind_error
  | pattern hRead hDialect hRules =>
    refine (reads_loadText hRead).loading.bind_ok (hDialect.reads.loading.bind_ok ?_)
    rw [Template.compile, hRules]
    exact .resulting _
  | structural hRead hDialect hRules hCompile =>
    refine (reads_loadText hRead).loading.bind_ok (hDialect.reads.loading.bind_ok ?_)
    rw [Template.compile_of_make hRules, hCompile]
    exact .resulting _

theorem reads_compile_iff : Reads job.compile files (.ok t) ↔ job.CompilesTo files.read t := by
  refine ⟨fun h => ?_, CompilesTo.reads⟩
  rcases job.compilesTo_or_compileFails files.read with ⟨t', hTo⟩ | ⟨fault, hFails⟩
  · obtain rfl : t = t' := Except.ok.inj (congrArg Prod.fst (h.symm.trans hTo.reads))
    exact hTo
  · cases h.symm.trans hFails.reads

end Job

end Stencil
