import ForeignNamespace.Proofs.ActingHosts
import ForeignNamespace.Script.Runner
import Mathlib.Data.List.Forall2

/-!
The accounts of a run of scripts.

Whatever the host does, each script of a run has one fate and leaves one account: what was said to
load it, what was said to run it, and the failures that it left.  The transcript and the report of
the run are made up of these accounts.
-/

namespace ForeignNamespace

inductive ScriptFate where
  | loadRaised (error : ForeignError)
  | loaded (handle : ObjectId) (fate : Fate)

namespace ScriptFate

def handle? : ScriptFate → Option ObjectId
  | .loadRaised _ => none
  | .loaded handle _ => some handle

def isReturned : ScriptFate → Bool
  | .loadRaised _ => false
  | .loaded _ fate => fate.isReturned

def handsValue : ScriptFate → Bool
  | .loadRaised _ => false
  | .loaded _ fate => fate.handsValue

@[simp] theorem isReturned_loaded (handle : ObjectId) (fate : Fate) :
    (loaded handle fate).isReturned = fate.isReturned := rfl

@[simp] theorem handsValue_loaded (handle : ObjectId) (fate : Fate) :
    (loaded handle fate).handsValue = fate.handsValue := rfl

end ScriptFate

/-- Whether a failure is one of a script, at a stage and for a cause. -/
structure ScriptFailure.Notes (f : ScriptFailure) (script : Script) (stage : FailureStage)
    (cause : Option ForeignError) : Prop where
  script_eq : f.script = scriptName script.path
  path_eq : f.path = script.path
  stage_eq : f.stage = stage
  cause_eq : f.cause = cause

/-- The failures that a script leaves when its fate is this. -/
inductive Leaves (script : Script) : ScriptFate → List ScriptFailure → Prop
  | loadRaised {error : ForeignError} {f : ScriptFailure}
      (notes : f.Notes script .load (some error)) : Leaves script (.loadRaised error) [f]
  | entryMissing {o : ObjectId} {f : ScriptFailure}
      (notes : f.Notes script .missingEntryPoint none) : Leaves script (.loaded o .entryMissing) [f]
  | lookupRaised {o : ObjectId} {error : ForeignError} {f : ScriptFailure}
      (notes : f.Notes script .run (some error)) :
      Leaves script (.loaded o (.lookupRaised error)) [f]
  | notAFunction {o : ObjectId} {typeName : String} {f : ScriptFailure}
      (notes : f.Notes script .run none) : Leaves script (.loaded o (.notAFunction typeName)) [f]
  | callRaised {o : ObjectId} {error : ForeignError} {f : ScriptFailure}
      (notes : f.Notes script .run (some error)) :
      Leaves script (.loaded o (.callRaised error)) [f]
  | nothing {o : ObjectId} : Leaves script (.loaded o (.returned .nothing)) []
  | issues {o : ObjectId} {issues : List String} {failures : List ScriptFailure}
      (notes : List.Forall₂ (fun issue f => f.Notes script .returnIssue none ∧ f.message = issue)
        issues failures) :
      Leaves script (.loaded o (.returned (.issues issues))) failures
  | noList {o : ObjectId} {f : ScriptFailure} (notes : f.Notes script .run none) :
      Leaves script (.loaded o (.returned .noList)) [f]
  | judgeRaised {o : ObjectId} {error : ForeignError} {f : ScriptFailure}
      (notes : f.Notes script .run (some error)) :
      Leaves script (.loaded o (.returned (.raised error))) [f]

/-- What is said to a project about the value that a script returned. -/
inductive Judges (project : ProjectId) : Value → Verdict → List Exchange → Prop
  | nothing : Judges project .none .nothing []
  | issues {value : Value} (some : value ≠ .none) (issues : List String) :
      Judges project value (.issues issues)
        [⟨.handleReturn project value, .ok (Option.some issues)⟩]
  | noList {value : Value} (some : value ≠ .none) :
      Judges project value .noList [⟨.handleReturn project value, .ok none⟩]
  | raised {value : Value} (some : value ≠ .none) (error : ForeignError) :
      Judges project value (.raised error) [⟨.handleReturn project value, .error error⟩]

inductive Calls (entry : EntryPoint) (project : ProjectId) (o : ObjectId) :
    Fate → List Exchange → Prop
  | lookupRaised (error : ForeignError) :
      Calls entry project o (.lookupRaised error) [⟨.getAttr o entry.name, .error error⟩]
  | entryMissing :
      Calls entry project o .entryMissing [⟨.getAttr o entry.name, .ok none⟩]
  | notAFunction {value : Value} (native : ∀ function, value ≠ .foreign function) :
      Calls entry project o (.notAFunction (value.typeName fun _ => ""))
        [⟨.getAttr o entry.name, .ok (some value)⟩]
  | callRaised (function : ObjectId) (argument : Value) (error : ForeignError) :
      Calls entry project o (.callRaised error)
        [⟨.getAttr o entry.name, .ok (some (.foreign function))⟩,
          ⟨.projectArgument project, argument⟩, ⟨.call function [argument], .error error⟩]
  | returned (function : ObjectId) (argument : Value) {value : Value} {verdict : Verdict}
      {talk : List Exchange} (judges : Judges project value verdict talk) :
      Calls entry project o (.returned verdict)
        (⟨.getAttr o entry.name, .ok (some (.foreign function))⟩ ::
          ⟨.projectArgument project, argument⟩ :: ⟨.call function [argument], .ok value⟩ :: talk)

/-- Whether a project is told of failures, of each of them once. -/
def Reports (project : ProjectId) (failures : List ScriptFailure) (talk : List Exchange) : Prop :=
  List.Forall₂ (fun f said => ∃ reply,
    said = ⟨.reportFailure project f.title (.ofPath f.path) f.summary, reply⟩) failures talk

section Says

variable {project : ProjectId} {talk : List Exchange}

theorem says_record {f : ScriptFailure} {u : Unit}
    (h : (ScriptRunner.record project f).Says talk u) :
    ∃ reply, talk = [⟨.reportFailure project f.title (.ofPath f.path) f.summary, reply⟩] := by
  obtain ⟨reply, rest, rfl, hrest⟩ := Bridge.says_ask_bind_iff.mp (Bridge.says_report_bind_iff.mp h)
  obtain rfl : rest = [] := by
    rcases reply with error | _
    · exact hrest.1
    · exact hrest.1
  exact ⟨reply, rfl⟩

theorem says_recordAll {failures : List ScriptFailure} {u : Unit}
    (h : (ScriptRunner.recordAll project failures).Says talk u) :
    Reports project failures talk := by
  induction failures generalizing talk with
  | nil =>
      obtain rfl : talk = [] := h.1
      exact .nil
  | cons f failures ih =>
      obtain ⟨front, back, u, rfl, hfront, hback⟩ := Bridge.says_bind_iff.mp h
      obtain ⟨reply, rfl⟩ := says_record hfront
      exact .cons ⟨reply, rfl⟩ (ih hback)

theorem says_judge {value : Value} {verdict : Verdict}
    (h : (ScriptRunner.judge project value).Says talk verdict) :
    Judges project value verdict talk := by
  rw [ScriptRunner.judge] at h
  split at h
  · rename_i hnone
    obtain ⟨rfl, rfl⟩ := Bridge.says_pure_iff.mp h
    cases value <;> cases hnone
    exact .nothing
  · rename_i hsome
    have hvalue : value ≠ .none := by
      rintro rfl
      exact hsome rfl
    obtain ⟨answer, rest, rfl, hrest⟩ := Bridge.says_ask_bind_iff.mp h
    rcases answer with error | _ | issues
    · obtain ⟨rfl, rfl⟩ := Bridge.says_pure_iff.mp hrest
      exact .raised hvalue error
    · obtain ⟨rfl, rfl⟩ := Bridge.says_pure_iff.mp hrest
      exact .noList hvalue
    · obtain ⟨rfl, rfl⟩ := Bridge.says_pure_iff.mp hrest
      exact .issues hvalue issues

theorem says_callEntry {runner : ScriptRunner} {script : LoadedScript} {fate : Fate}
    (h : (runner.callEntry project script).Says talk fate) :
    Calls runner.entry project script.handle fate talk := by
  obtain ⟨entry, rest, rfl, hrest⟩ := Bridge.says_ask_bind_iff.mp (Bridge.says_report_bind_iff.mp h)
  rcases entry with error | _ | value
  · obtain ⟨rfl, rfl⟩ := Bridge.says_pure_iff.mp hrest
    exact .lookupRaised error
  · obtain ⟨rfl, rfl⟩ := Bridge.says_pure_iff.mp hrest
    exact .entryMissing
  · cases value with
    | foreign function =>
        obtain ⟨argument, rest, rfl, hcall⟩ := Bridge.says_ask_bind_iff.mp hrest
        obtain ⟨answer, rest, rfl, hback⟩ := Bridge.says_ask_bind_iff.mp hcall
        cases answer with
        | error error =>
            obtain ⟨rfl, rfl⟩ := Bridge.says_pure_iff.mp hback
            exact .callRaised function argument error
        | ok value =>
            obtain ⟨front, back, verdict, rfl, hjudge, hend⟩ :=
              Bridge.says_bind_iff.mp (Bridge.says_report_bind_iff.mp hback)
            obtain ⟨rfl, rfl⟩ := Bridge.says_pure_iff.mp hend
            rw [List.append_nil]
            exact .returned function argument (says_judge hjudge)
    | _ =>
        obtain ⟨rfl, rfl⟩ := Bridge.says_pure_iff.mp hrest
        exact .notAFunction (by simp)

end Says

theorem Fate.leaves (entry : EntryPoint) (script : Script) (o : ObjectId) (fate : Fate) :
    Leaves script (.loaded o fate) (fate.failures entry (scriptName script.path) script.path) := by
  rcases fate with _ | error | typeName | error | _ | issues | _ | error
  · exact .entryMissing ⟨rfl, rfl, rfl, rfl⟩
  · exact .lookupRaised ⟨rfl, rfl, rfl, rfl⟩
  · exact .notAFunction ⟨rfl, rfl, rfl, rfl⟩
  · exact .callRaised ⟨rfl, rfl, rfl, rfl⟩
  · exact .nothing
  · refine .issues (List.forall₂_map_right_iff.mpr (List.forall₂_same.mpr fun issue _ => ?_))
    exact ⟨⟨rfl, rfl, rfl, rfl⟩, rfl⟩
  · exact .noList ⟨rfl, rfl, rfl, rfl⟩
  · exact .judgeRaised ⟨rfl, rfl, rfl, rfl⟩

/-- What a run did with a script. -/
structure Account where
  script : Script
  fate : ScriptFate
  failures : List ScriptFailure
  /-- What was said to load the script. -/
  loading : List Exchange
  /-- What was said to run it. -/
  running : List Exchange

/-- Whether an account can stand for what a run did: its failures are those of its fate, and each
was reported once, right behind what led to it. -/
inductive Account.Holds (entry : EntryPoint) (project : ProjectId) : Account → Prop
  | raised {script : Script} {error : ForeignError} {f : ScriptFailure} {told : List Exchange}
      (leaves : Leaves script (.loadRaised error) [f]) (reports : Reports project [f] told) :
      Holds entry project
        { script, fate := .loadRaised error, failures := [f]
          loading := ⟨.loadScript script.id, .error error⟩ :: told, running := [] }
  | loaded {script : Script} {o : ObjectId} {fate : Fate} {failures : List ScriptFailure}
      {talk told : List Exchange} (calls : Calls entry project o fate talk)
      (leaves : Leaves script (.loaded o fate) failures) (reports : Reports project failures told) :
      Holds entry project
        { script, fate := .loaded o fate, failures
          loading := [⟨.loadScript script.id, .ok o⟩], running := talk ++ told }

def Account.isLoaded (a : Account) : Bool := a.fate.handle?.isSome

/-- Whether accounts make up two passes over scripts: the load of all, and the run of those that
were loaded, which starts from one report and ends with another. -/
structure Accounts (runner : ScriptRunner) (project : ProjectId) (accounts : List Account)
    (scripts : List Script) (loading running : List Exchange) (failures : List ScriptFailure)
    (before report : RunReport) : Prop where
  holds : ∀ a ∈ accounts, a.Holds runner.entry project
  scripts : accounts.map (·.script) = scripts
  loading : accounts.flatMap (·.loading) = loading
  running : accounts.flatMap (·.running) = running
  loadFailures : failures = (accounts.filter (!·.isLoaded)).flatMap (·.failures)
  ran : report.ran = before.ran ++
    (accounts.filter (·.fate.isReturned)).map fun a => scriptName a.script.path
  runFailures : report.failures = before.failures ++
    (accounts.filter (·.isLoaded)).flatMap (·.failures)
  returnValues : report.returnValues = before.returnValues + accounts.countP (·.fate.handsValue)

namespace Accounts

variable {runner : ScriptRunner} {project : ProjectId} {accounts : List Account}
  {scripts : List Script} {script : Script} {loading running talk told : List Exchange}
  {failures : List ScriptFailure} {before report : RunReport}

theorem nil : Accounts runner project [] [] [] [] [] report report where
  holds _ h := absurd h List.not_mem_nil
  scripts := rfl
  loading := rfl
  running := rfl
  loadFailures := rfl
  ran := (List.append_nil _).symm
  runFailures := (List.append_nil _).symm
  returnValues := rfl

theorem cons_raised {error : ForeignError} {f : ScriptFailure}
    (h : Accounts runner project accounts scripts loading running failures before report)
    (leaves : Leaves script (.loadRaised error) [f]) (reports : Reports project [f] told) :
    Accounts runner project
      ({ script, fate := .loadRaised error, failures := [f]
         loading := ⟨.loadScript script.id, .error error⟩ :: told, running := [] } :: accounts)
      (script :: scripts) (⟨.loadScript script.id, .error error⟩ :: told ++ loading) running
      (f :: failures) before report where
  holds := List.forall_mem_cons.mpr ⟨.raised leaves reports, h.holds⟩
  scripts := congrArg (script :: ·) h.scripts
  loading := by rw [List.flatMap_cons, h.loading]
  running := by rw [List.flatMap_cons, h.running, List.nil_append]
  loadFailures := by rw [h.loadFailures]; rfl
  ran := h.ran
  runFailures := h.runFailures
  returnValues := h.returnValues

theorem cons_loaded {o : ObjectId} {fate : Fate} (calls : Calls runner.entry project o fate talk)
    (reports : Reports project
      (fate.failures runner.entry (scriptName script.path) script.path) told)
    (h : Accounts runner project accounts scripts loading running failures
      (before.add runner.entry (scriptName script.path) script.path fate) report) :
    Accounts runner project
      ({ script, fate := .loaded o fate
         failures := fate.failures runner.entry (scriptName script.path) script.path
         loading := [⟨.loadScript script.id, .ok o⟩], running := talk ++ told } :: accounts)
      (script :: scripts) (⟨.loadScript script.id, .ok o⟩ :: loading) (talk ++ told ++ running)
      failures before report where
  holds := List.forall_mem_cons.mpr ⟨.loaded calls (fate.leaves _ _ o) reports, h.holds⟩
  scripts := congrArg (script :: ·) h.scripts
  loading := by rw [List.flatMap_cons, h.loading]; rfl
  running := by rw [List.flatMap_cons, h.running]
  loadFailures := h.loadFailures
  ran := by
    rw [h.ran, RunReport.add]
    cases hreturned : fate.isReturned with
    | true => simp [hreturned]
    | false => simp [hreturned]
  runFailures := by
    rw [h.runFailures, RunReport.add, List.append_assoc]
    rfl
  returnValues := by
    rw [h.returnValues, RunReport.add, List.countP_cons]
    cases hhands : fate.handsValue with
    | true => simp [hhands, Nat.add_assoc, Nat.add_comm 1]
    | false => simp [hhands]

/-- The two passes over scripts leave accounts of all of them. -/
theorem of_says {loaded : List LoadedScript}
    (loads : (ScriptRunner.loadScripts project scripts).Says loading (loaded, failures))
    (runs : (runner.runScripts project before loaded).Says running report) :
    ∃ accounts,
      Accounts runner project accounts scripts loading running failures before report := by
  induction scripts generalizing loading loaded failures before running with
  | nil =>
      obtain ⟨rfl, hresult⟩ := Bridge.says_pure_iff.mp loads
      obtain ⟨rfl, rfl⟩ := Prod.mk.inj hresult
      obtain ⟨rfl, rfl⟩ := Bridge.says_pure_iff.mp runs
      exact ⟨[], nil⟩
  | cons script scripts ih =>
      obtain ⟨answer, rest, rfl, hrest⟩ := Bridge.says_ask_bind_iff.mp loads
      rcases answer with error | o
      · -- A script that is not loaded has no part in the second pass.
        obtain ⟨told, back, u, rfl, hrecord, hback⟩ := Bridge.says_bind_iff.mp hrest
        obtain ⟨later, last, ⟨loaded', failures'⟩, rfl, hlater, hlast⟩ :=
          Bridge.says_bind_iff.mp hback
        obtain ⟨rfl, hresult⟩ := Bridge.says_pure_iff.mp hlast
        obtain ⟨rfl, rfl⟩ := Prod.mk.inj hresult
        obtain ⟨accounts, haccounts⟩ := ih hlater runs
        obtain ⟨reply, rfl⟩ := says_record hrecord
        rw [List.append_nil]
        exact ⟨_, haccounts.cons_raised (.loadRaised ⟨rfl, rfl, rfl, rfl⟩)
          (.cons ⟨reply, rfl⟩ .nil)⟩
      · obtain ⟨later, last, ⟨loaded', failures'⟩, rfl, hlater, hlast⟩ :=
          Bridge.says_bind_iff.mp hrest
        obtain ⟨rfl, hresult⟩ := Bridge.says_pure_iff.mp hlast
        obtain ⟨rfl, rfl⟩ := Prod.mk.inj hresult
        obtain ⟨talk, behind, fate, rfl, hcall, hbehind⟩ := Bridge.says_bind_iff.mp runs
        obtain ⟨told, others, u, rfl, hrecord, hothers⟩ := Bridge.says_bind_iff.mp hbehind
        obtain ⟨accounts, haccounts⟩ := ih hlater hothers
        rw [List.append_nil, ← List.append_assoc]
        exact ⟨_, cons_loaded (says_callEntry hcall) (says_recordAll hrecord) haccounts⟩

end Accounts

def Query.script? : Query → Option ScriptId
  | .loadScript script => some script
  | _ => none

def Query.lookup? : Query → Option (ObjectId × String)
  | .getAttr o name => some (o, name)
  | _ => none

def Query.handed? : Query → Option Value
  | .handleReturn _ value => some value
  | _ => none

section Transcript

variable {entry : EntryPoint} {project : ProjectId} {talk : List Exchange}

theorem Reports.filterMap_eq_nil {α : Type} {failures : List ScriptFailure}
    (h : Reports project failures talk) {part : Query → Option α}
    (silent : ∀ title target message, part (.reportFailure project title target message) = none) :
    talk.filterMap (fun x => part x.question) = [] := by
  induction h with
  | nil => rfl
  | cons hx _ ih =>
      obtain ⟨reply, rfl⟩ := hx
      rw [List.filterMap_cons_none (by exact silent _ _ _), ih]

theorem Calls.script_eq_nil {o : ObjectId} {fate : Fate} (h : Calls entry project o fate talk) :
    talk.filterMap (fun x => x.question.script?) = [] := by
  cases h with
  | returned _ _ judges => cases judges <;> rfl
  | _ => rfl

theorem Calls.lookup_eq {o : ObjectId} {fate : Fate} (h : Calls entry project o fate talk) :
    talk.filterMap (fun x => x.question.lookup?) = [(o, entry.name)] := by
  cases h with
  | returned _ _ judges => cases judges <;> rfl
  | _ => rfl

theorem Calls.handed_length {o : ObjectId} {fate : Fate} (h : Calls entry project o fate talk) :
    (talk.filterMap fun x => x.question.handed?).length = fate.handsValue.toNat := by
  cases h with
  | returned _ _ judges => cases judges <;> rfl
  | _ => rfl

variable {a : Account}

theorem Account.Holds.loading_script (h : a.Holds entry project) :
    a.loading.filterMap (fun x => x.question.script?) = [a.script.id] := by
  cases h with
  | raised _ reports => exact congrArg (_ :: ·) (reports.filterMap_eq_nil fun _ _ _ => rfl)
  | loaded => rfl

theorem Account.Holds.loading_lookup (h : a.Holds entry project) :
    a.loading.filterMap (fun x => x.question.lookup?) = [] := by
  cases h with
  | raised _ reports => exact reports.filterMap_eq_nil fun _ _ _ => rfl
  | loaded => rfl

theorem Account.Holds.running_script (h : a.Holds entry project) :
    a.running.filterMap (fun x => x.question.script?) = [] := by
  cases h with
  | raised => rfl
  | loaded calls _ reports =>
      rw [List.filterMap_append, calls.script_eq_nil,
        reports.filterMap_eq_nil fun _ _ _ => rfl, List.append_nil]

theorem Account.Holds.running_lookup (h : a.Holds entry project) :
    a.running.filterMap (fun x => x.question.lookup?) =
      (a.fate.handle?.map (·, entry.name)).toList := by
  cases h with
  | raised => rfl
  | loaded calls _ reports =>
      rw [List.filterMap_append, calls.lookup_eq, reports.filterMap_eq_nil fun _ _ _ => rfl]
      rfl

theorem Account.Holds.running_handed (h : a.Holds entry project) :
    (a.running.filterMap fun x => x.question.handed?).length = a.fate.handsValue.toNat := by
  cases h with
  | raised => rfl
  | loaded calls _ reports =>
      rw [List.filterMap_append, reports.filterMap_eq_nil fun _ _ _ => rfl, List.append_nil,
        calls.handed_length]
      rfl

variable {accounts : List Account}

theorem filterMap_flatMap_eq {α : Type} {talks : Account → List Exchange}
    {part : Exchange → Option α} {parts : Account → List α}
    (h : ∀ a ∈ accounts, (talks a).filterMap part = parts a) :
    (accounts.flatMap talks).filterMap part = accounts.flatMap parts := by
  rw [List.filterMap_flatMap]
  exact List.flatMap_congr h

theorem length_handed (h : ∀ a ∈ accounts, a.Holds entry project) :
    ((accounts.flatMap (·.running)).filterMap fun x => x.question.handed?).length =
      accounts.countP (·.fate.handsValue) := by
  induction accounts with
  | nil => rfl
  | cons a accounts ih =>
      obtain ⟨ha, haccounts⟩ := List.forall_mem_cons.mp h
      rw [List.flatMap_cons, List.filterMap_append, List.length_append, ih haccounts,
        ha.running_handed, List.countP_cons, Nat.add_comm]
      cases a.fate.handsValue <;> rfl

end Transcript

/-- Whether accounts of all scripts of a run make up its transcript, of which the first part is
what was said while scripts were loaded, and its report. -/
structure ScriptRunner.Audited (runner : ScriptRunner) (project : ProjectId)
    (accounts : List Account) (loading running : List Exchange) (report : RunReport) : Prop where
  holds : ∀ a ∈ accounts, a.Holds runner.entry project
  scripts : accounts.map (·.script) = runner.scripts
  loading_eq : loading = accounts.flatMap (·.loading)
  running_eq : running = accounts.flatMap (·.running)
  loads : loading.filterMap (fun x => x.question.script?) = runner.scripts.map (·.id)
  noLookup : loading.filterMap (fun x => x.question.lookup?) = []
  noLoad : running.filterMap (fun x => x.question.script?) = []
  lookups : running.filterMap (fun x => x.question.lookup?) =
    accounts.filterMap fun a => a.fate.handle?.map (·, runner.entry.name)
  ran : report.ran =
    (accounts.filter (·.fate.isReturned)).map fun a => scriptName a.script.path
  failures : report.failures = (accounts.filter (!·.isLoaded)).flatMap (·.failures) ++
    (accounts.filter (·.isLoaded)).flatMap (·.failures)
  returnValues : report.returnValues = accounts.countP (·.fate.handsValue)
  handed : (running.filterMap fun x => x.question.handed?).length = report.returnValues

namespace ScriptRunner

/-- The part of a run in front of the scripts. -/
def install (runner : ScriptRunner) : Bridge (Except ImportError Unit) := do
  let root ← runner.registry.makePlain runner.root none
  runner.installLibraries root runner.libraries

/-- The part of a run that the scripts are loaded and run in. -/
def passes (runner : ScriptRunner) (project : ProjectId) : Bridge RunReport := do
  let (loaded, failures) ← loadScripts project runner.scripts
  let report ← runner.runScripts project { failures } loaded
  Bridge.report (.runFinished report.ran.length report.failures.length)
  return report

theorem run_eq (runner : ScriptRunner) (project : ProjectId) :
    runner.run project = do
      match ← runner.install with
      | .error error => return .error error
      | .ok () => return .ok (← runner.passes project) := by
  rw [run, install, bind_assoc]
  refine bind_congr fun root => bind_congr fun installed => ?_
  cases installed with
  | error error => rfl
  | ok =>
      rw [passes]
      simp only [bind_assoc, pure_bind]

theorem audited_of_says {runner : ScriptRunner} {project : ProjectId} {talk : List Exchange}
    {report : RunReport} (h : (runner.passes project).Says talk report) :
    ∃ accounts loading running, talk = loading ++ running ∧
      runner.Audited project accounts loading running report := by
  obtain ⟨loading, back, ⟨loaded, failures⟩, rfl, hloads, hback⟩ := Bridge.says_bind_iff.mp h
  obtain ⟨running, last, report', rfl, hruns, hlast⟩ := Bridge.says_bind_iff.mp hback
  obtain ⟨rfl, rfl⟩ : last = [] ∧ report = report' := hlast
  obtain ⟨accounts, haccounts⟩ := Accounts.of_says hloads hruns
  have holds := haccounts.holds
  have hreturned : report.returnValues = accounts.countP (·.fate.handsValue) :=
    haccounts.returnValues.trans (Nat.zero_add _)
  refine ⟨accounts, loading, running, by rw [List.append_nil], ?_⟩
  constructor
  · exact holds
  · exact haccounts.scripts
  · exact haccounts.loading.symm
  · exact haccounts.running.symm
  · rw [← haccounts.loading, filterMap_flatMap_eq fun a ha => (holds a ha).loading_script,
      ← List.map_eq_flatMap, ← haccounts.scripts, List.map_map]
    rfl
  · rw [← haccounts.loading, filterMap_flatMap_eq fun a ha => (holds a ha).loading_lookup]
    exact List.flatMap_eq_nil_iff.mpr fun _ _ => rfl
  · rw [← haccounts.running, filterMap_flatMap_eq fun a ha => (holds a ha).running_script]
    exact List.flatMap_eq_nil_iff.mpr fun _ _ => rfl
  · rw [← haccounts.running, filterMap_flatMap_eq fun a ha => (holds a ha).running_lookup,
      List.filterMap_eq_flatMap_toList]
  · exact haccounts.ran
  · rw [haccounts.runFailures, haccounts.loadFailures]
  · exact hreturned
  · rw [← haccounts.running, length_handed holds, hreturned]

/-- Whatever the host says and does, a run whose libraries are installed ends with a report, and
each script leaves one account in transcript and report. -/
theorem run_audited (runner : ScriptRunner) (project : ProjectId) (host : ActingHost) (w : World)
    (installed : (runner.install.attend host [] w).result = .ok ()) :
    let c := (runner.run project).attend host [] w
    ∃ report accounts loading running, c.result = .ok report ∧
      c.exchanges = (runner.install.attend host [] w).exchanges ++ (loading ++ running) ∧
      runner.Audited project accounts loading running report := by
  intro c
  have hrun : c = _ := congrArg (fun p => p.attend host [] w) (run_eq runner project)
  rw [Bridge.attend_bind, installed, Bridge.attend_bind] at hrun
  have hpasses := Bridge.says_attend host (runner.passes project)
    (runner.install.attend host [] w).exchanges (runner.install.attend host [] w).world
  obtain ⟨accounts, loading, running, htalk, haudited⟩ := audited_of_says hpasses
  refine ⟨_, accounts, loading, running, ?_, ?_, haudited⟩
  · rw [hrun]
    rfl
  · rw [hrun, ← htalk]
    exact congrArg (_ ++ ·) (List.append_nil _)

theorem run_audited_library :
    let runner : ScriptRunner :=
      { registry := .processWide, entry := .validate
        libraries := [{ name := "lib", script := { id := ⟨0⟩, path := "lib.py" } }]
        scripts := [{ id := ⟨1⟩, path := "a/main.py" }, { id := ⟨2⟩, path := "b/bad.py" }] }
    -- Every script adds a node when it is executed; the one with index 2 raises then.
    let error : ForeignError := { kind := "SyntaxError", message := "bad.py" }
    let host : ActingHost := fun _ w question => match question with
      | .loadScript script =>
        (if script.index = 2 then .error error else .ok ⟨script.index⟩, w.addNode default)
      | .getAttr .. => (.ok (some (.foreign ⟨7⟩)), w)
      | .call .. => (.ok (.str "done"), w)
      | .handleReturn .. => (.ok (some ["too slow"]), w)
      | .reportFailure .. => (.error error, w)
      | other => (FixedHost.ignorant other, w)
    let c := (runner.run ⟨0⟩).attend host [] World.fresh
    (runner.install.attend host [] World.fresh).result = .ok () ∧
      ∃ report accounts loading running, c.result = .ok report ∧
        c.exchanges =
          (runner.install.attend host [] World.fresh).exchanges ++ (loading ++ running) ∧
        runner.Audited ⟨0⟩ accounts loading running report ∧
        report.ran = ["main"] ∧ report.failures.map (·.stage) = [.load, .returnIssue] := by
  intro runner error host c
  have installed : (runner.install.attend host [] World.fresh).result = .ok () := by decide +kernel
  obtain ⟨report, accounts, loading, running, hresult, htalk, haudited⟩ :=
    run_audited runner ⟨0⟩ host World.fresh installed
  refine ⟨installed, report, accounts, loading, running, hresult, htalk, haudited, ?_⟩
  have hreport : c.result.toOption.map (fun report => (report.ran, report.failures.map (·.stage))) =
      some (["main"], [.load, .returnIssue]) := by decide +kernel
  rw [hresult] at hreport
  exact Prod.mk.inj (Option.some.inj hreport)

end ScriptRunner

end ForeignNamespace
