import Stencil.Proofs.Files.Tree
import Stencil.Proofs.Program.Stages
import Stencil.Proofs.Result

/-!
# What a job leaves behind

A job writes nothing before all its stages have succeeded, and then it writes its output and
nothing else.

* `exists_run_writeOutput`: what becomes of a tree of files when an output is written, and
  `Job.exists_run_putOut` when it is put out.
* `Job.Renders.run_steps`, `Job.Fails.reads`: what a job results in.
* `runProgram_of_job`: what a command line leaves behind that does not only check.
-/

namespace Stencil

open FileTree

variable {files after : FileTree} {name text : String} {job : Job} {fault : JobFault}

/-! ## Writing the output -/

section

variable [SystemMessages]

theorem run_writeFile (h : files.writeText? name text = some after) :
    (writeFile name text : ExceptT JobFault (StateM FileTree) Unit).run files =
      (.ok (), after) := by
  have hWrite : (Host.writeText name text : StateM FileTree (Except String Unit)).run files =
      (.ok (), after) := by
    simp only [Host.writeText, StateT.run, h]
  rw [writeFile, run_liftM_bind _ hWrite]
  rfl

theorem run_writeFile_error (h : files.writeText? name text = none) :
    (writeFile name text : ExceptT JobFault (StateM FileTree) Unit).run files =
      (.error (.outputNotWritten ⟨name, SystemMessages.refusal files .write name⟩), files) := by
  have hWrite : (Host.writeText name text : StateM FileTree (Except String Unit)).run files =
      (.error (SystemMessages.refusal files .write name), files) := by
    simp only [Host.writeText, StateT.run, h]
  rw [writeFile, run_liftM_bind _ hWrite]
  rfl

theorem run_createParents (name : String) (files : FileTree) :
    (createParents name : ExceptT JobFault (StateM FileTree) Unit).run files =
      (if (files.prepared name).1 then .ok ()
        else .error (.directoryNotCreated ⟨(FileName.parent? name).getD "",
          SystemMessages.refusal files .create ((FileName.parent? name).getD "")⟩),
        (files.prepared name).2) := by
  rw [createParents]
  cases hParent : FileName.parent? name with
  | none =>
    -- a name without parts leads through no directories
    rw [prepared, FileName.parts_of_parent?_eq_none hParent]
    rfl
  | some directory =>
    have hPrepared : files.createDirectories directory = files.prepared name := by
      rw [prepared, createDirectories, FileName.parts_of_parent? hParent]
    by_cases hEmpty : directory = ""
    · rw [← hPrepared, hEmpty]
      rfl
    · have hRun : (Host.createDirectories directory : StateM FileTree _).run files =
          (if (files.prepared name).1 then .ok ()
            else .error (SystemMessages.refusal files .create directory),
            (files.prepared name).2) := hPrepared ▸ rfl
      show (ite (directory ≠ "") _ _ : ExceptT JobFault (StateM FileTree) Unit).run files = _
      rw [if_pos hEmpty, run_liftM_bind _ hRun]
      cases (files.prepared name).1 <;> rfl

/-- **An output is written where the tree admits it**, and then nothing else has changed. -/
theorem exists_run_writeOutput (h : files.Admits name) (text : String) :
    ∃ after, (writeOutput name text : ExceptT JobFault (StateM FileTree) Unit).run files =
      (.ok (), after) ∧ files.Puts name text after := by
  obtain ⟨after, hWrite, hPuts⟩ := h.exists_puts text
  have hParents := run_createParents name files
  rw [if_pos h.prepared_fst] at hParents
  refine ⟨after, ?_, hPuts⟩
  rw [writeOutput, run_bind_of_ok _ hParents, run_writeFile hWrite]

theorem exists_run_writeOutput_error (h : ¬files.Admits name) (text : String) :
    ∃ fault after, (writeOutput name text : ExceptT JobFault (StateM FileTree) Unit).run files =
      (.error fault, after) := by
  have hParents := run_createParents name files
  by_cases hThere : (files.prepared name).1 = true
  · rw [if_pos hThere] at hParents
    have hWrite : (files.prepared name).2.writeText? name text = none :=
      Option.eq_none_iff_forall_ne_some.mpr fun _ hSome => h (admits_of_writeText? hThere hSome)
    exact ⟨_, _, (run_bind_of_ok _ hParents).trans (run_writeFile_error hWrite)⟩
  · rw [if_neg hThere] at hParents
    exact ⟨_, _, run_bind_of_error _ hParents⟩

namespace Job

theorem run_putOut_none (h : job.output = none) :
    (job.putOut text : ExceptT JobFault (StateM FileTree) Outcome).run files =
      (.ok { output := text }, files) := by
  rw [putOut, h]
  rfl

/-- **An output goes to the file that is named for it**, where the tree admits this, and then
nothing else has changed. -/
theorem exists_run_putOut (hName : job.output = some name) (h : files.Admits name) :
    ∃ after, files.Puts name text after ∧
      (job.putOut text : ExceptT JobFault (StateM FileTree) Outcome).run files =
        (.ok {}, after) := by
  obtain ⟨after, hWrite, hPuts⟩ := exists_run_writeOutput h text
  refine ⟨after, hPuts, ?_⟩
  rw [putOut, hName]
  exact run_bind_of_ok _ hWrite

theorem exists_run_putOut_error (hName : job.output = some name) (h : ¬files.Admits name) :
    ∃ fault after, (job.putOut text : ExceptT JobFault (StateM FileTree) Outcome).run files =
      (.error fault, after) := by
  obtain ⟨fault, after, hWrite⟩ := exists_run_writeOutput_error h text
  refine ⟨fault, after, ?_⟩
  rw [putOut, hName]
  exact run_bind_of_error _ hWrite

end Job

end

/-! ## The steps of a job -/

namespace Job

section

variable [PatternCompiler] [DocumentReader] [SystemMessages]

/-- **A job that has an output** comes to putting it out, with all files as they were. -/
theorem Renders.run_steps (h : job.Renders files.read text) (hCheck : job.check = false) :
    (job.steps : ExceptT JobFault (StateM FileTree) Outcome).run files =
      (job.putOut text : ExceptT JobFault (StateM FileTree) Outcome).run files := by
  obtain ⟨hTemplate, hContext⟩ := h
  rw [steps, run_bind_of_ok _ hTemplate.reads, hCheck]
  exact run_bind_of_ok _ hContext.reads.loading

/-- **A job that has no output** tells the first reason for that, and leaves all files as they
are. -/
theorem Fails.reads (h : job.Fails files.read fault) (hCheck : job.check = false) :
    Reads job.steps files (.error fault) := by
  cases h with
  | compile hCompile => exact hCompile.reads.bind_error
  | data hTemplate hData =>
    refine hTemplate.reads.bind_ok ?_
    rw [hCheck]
    exact hData.reads.loading.bind_error

end

section

variable [PatternCompiler] [DocumentReader] [CommandLine] [SystemMessages]

theorem run_of_steps {outcome : Outcome}
    (h : (job.steps : ExceptT JobFault (StateM FileTree) Outcome).run files =
      (.ok outcome, after)) :
    (job.run : StateM FileTree Outcome).run files = (outcome, after) :=
  run_stateM_bind _ h

theorem run_of_steps_error
    (h : (job.steps : ExceptT JobFault (StateM FileTree) Outcome).run files =
      (.error fault, after)) :
    (job.run : StateM FileTree Outcome).run files =
      ({ exitCode := 1, errors := CommandLine.report fault.messages }, after) :=
  run_stateM_bind _ h

end

end Job

/-! ## Command lines -/

section

variable [PatternCompiler] [DocumentReader] [CommandLine] [SystemMessages]

theorem runProgram_eq_run {arguments : List String} (h : CommandLine.job arguments = .ok job) :
    (runProgram arguments : StateM FileTree Outcome) = job.run := by
  rw [runProgram, h]

/-- **A command line writes its output or nothing**, when it does not only check.  If there is an
output, it goes to standard output, or else to the file that is named for it, where this can be
written, and nothing else changes.  If there is none, the first reason for that is told, nothing
is put out, and all files are as they were.  This holds whatever compiles patterns, reads documents
and command lines, and says why a file is refused. -/
theorem runProgram_of_job {arguments : List String} {job : Job}
    (hJob : CommandLine.job arguments = .ok job) (hCheck : job.check = false)
    (files : FileTree) :
    ((∃ text, job.Renders files.read text) ∨ ∃ fault, job.Fails files.read fault) ∧
      (∀ text, job.Renders files.read text →
        (job.output = none →
          (runProgram arguments : StateM FileTree Outcome).run files =
            ({ output := text }, files)) ∧
        ∀ name, job.output = some name →
          (files.Admits name → ∃ after, files.Puts name text after ∧
            (runProgram arguments : StateM FileTree Outcome).run files = ({}, after)) ∧
          (¬files.Admits name → ∃ (fault : JobFault) (after : FileTree),
            (runProgram arguments : StateM FileTree Outcome).run files =
              ({ exitCode := 1, errors := CommandLine.report fault.messages }, after))) ∧
      ∀ fault, job.Fails files.read fault →
        (runProgram arguments : StateM FileTree Outcome).run files =
          ({ exitCode := 1, errors := CommandLine.report fault.messages }, files) := by
  rw [runProgram_eq_run hJob]
  refine ⟨job.renders_or_fails _, fun text hText => ?_, fun fault hFault => ?_⟩
  · have hSteps := hText.run_steps hCheck
    refine ⟨fun hNone => ?_, fun name hName => ⟨fun hAdmits => ?_, fun hNot => ?_⟩⟩
    · exact Job.run_of_steps (hSteps.trans (Job.run_putOut_none hNone))
    · obtain ⟨after, hPuts, hRun⟩ := Job.exists_run_putOut hName hAdmits
      exact ⟨after, hPuts, Job.run_of_steps (hSteps.trans hRun)⟩
    · obtain ⟨fault, after, hRun⟩ := Job.exists_run_putOut_error hName hNot
      exact ⟨fault, after, Job.run_of_steps_error (hSteps.trans hRun)⟩
  · exact Job.run_of_steps_error (hFault.reads hCheck)

end

/-- A file in a directory that is missing, and data that are. -/
theorem runProgram_of_job_output :
    let arguments := ["page.txt", "-d", "who.yaml", "-o", "out/./new/page"]
    let job : Job :=
      { template := "page.txt", data := some "who.yaml", output := some "out/./new/page" }
    let page : List String × FileNode := (["page.txt"], .file "Hi <%= who[0] %>!")
    let who : List String × FileNode := (["who.yaml"], .file "who: [Ann, Ben]")
    let files : FileTree := { nodes := [page, who, (["out"], .directory)] }
    let missing : FileTree := { nodes := [page, (["out", "new"], .bytes)] }
    let fault : JobFault :=
      .load (.unreadable .data ⟨"who.yaml", "No such file or directory (os error 2)"⟩)
    CommandLine.job arguments = .ok job ∧ job.check = false ∧
      job.Renders files.read "Hi Ann!" ∧ files.Admits "out/./new/page" ∧
      (∃ after, files.Puts "out/./new/page" "Hi Ann!" after ∧
        (runProgram arguments : StateM FileTree Outcome).run files = ({}, after)) ∧
      job.Fails missing.read fault ∧
      fault.messages = ["Failed to read data file: " ++ Text.quoted "who.yaml",
        "No such file or directory (os error 2)"] ∧
      (runProgram arguments : StateM FileTree Outcome).run missing =
        ({ exitCode := 1, errors := CommandLine.report fault.messages }, missing) := by
  intro arguments job page who files missing fault
  have hJob : CommandLine.job arguments = .ok job := by decide +kernel
  have hOutput : ((Template.compile .standard "Hi <%= who[0] %>!").toOption.bind fun t =>
      (Context.parse .yaml "who: [Ann, Ben]").toOption.map t.render) = some "Hi Ann!" := by
    decide +kernel
  obtain ⟨t, hTemplate, hOutput⟩ := Option.bind_eq_some_iff.mp hOutput
  obtain ⟨c, hContext, hText⟩ := Option.map_eq_some_iff.mp hOutput
  have hCompile := Except.eq_ok_of_toOption hTemplate
  have hFiles : job.CompilesTo files.read t :=
    (Job.compilesTo_iff_compile (by decide +kernel) .standard).mpr hCompile
  have hMissing : job.CompilesTo missing.read t :=
    (Job.compilesTo_iff_compile (by decide +kernel) .standard).mpr hCompile
  have hRenders : job.Renders files.read "Hi Ann!" :=
    hText ▸ .intro hFiles (.file (by decide +kernel) (Except.eq_ok_of_toOption hContext))
  have hFails : job.Fails missing.read fault := .data hMissing (.unreadable (by decide +kernel))
  have hAdmits : files.Admits "out/./new/page" :=
    ⟨by decide +kernel, by decide +kernel, by decide +kernel, by decide +kernel, by decide +kernel⟩
  obtain ⟨-, hPuts, -⟩ := runProgram_of_job hJob rfl files
  obtain ⟨-, -, hTold⟩ := runProgram_of_job hJob rfl missing
  obtain ⟨-, hWritten⟩ := hPuts _ hRenders
  exact ⟨hJob, rfl, hRenders, hAdmits, (hWritten _ rfl).1 hAdmits, hFails, rfl, hTold _ hFails⟩

end Stencil
