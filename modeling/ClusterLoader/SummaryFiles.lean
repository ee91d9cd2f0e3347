import ClusterLoader.FieldWrites
import ClusterLoader.TestExecution

/-!
# The summaries of a test in the report directory

After the steps every summary is written to a file of its own name: the name
of the summary, the name of the test, the second of its creation and its
extension. Two summaries that agree in all of these go to one file, and the
later one stays. The main theorem says when every summary is found in its file
once the test has returned.

A name is usually a single component of a path. A name with a slash denotes a
file in another directory, which the test does not create; where such a
directory exists, two different names may spell one path.
-/

namespace SummaryFiles

open RequestPrograms RequestPrograms.Prog TestConfig TestExecution FieldWrites SeparatedNames

abbrev Trace := List (Event Reply)

abbrev Files := Path → Option String

structure FileWrite where
  path : Path
  content : String

def fileWrites : Writes Files Path FileWrite where
  field := FileWrite.path
  apply := fun w files => Function.update files w.path (some w.content)
  overwrites := by
    intro a b files same
    rw [same, Function.update_idem]
  commutes := by
    intro a b files different
    exact Function.update_comm (Ne.symm different) _ _ files

/-- The write that a call has carried out. -/
def written? : Event Reply → Option FileWrite
  | ⟨.writeFile path content, none⟩ => some ⟨path, content⟩
  | _ => none

/-- The files after the calls of `t`, none of which deletes any. -/
def filesAfter (files : Files) (t : Trace) : Files :=
  fileWrites.applyAll (t.filterMap written?) files

/-- If every write of a file has the same content, each finds its own. -/
theorem applyAll_found_iff (ws : List FileWrite) (files : Files) :
    (∀ w ∈ ws, fileWrites.applyAll ws files w.path = some w.content) ↔
      ∀ w ∈ ws, ∀ w' ∈ ws, w.path = w'.path → w.content = w'.content := by
  constructor
  · intro found w hw w' hw' same
    have hcontent := found w hw
    rw [same, found w' hw'] at hcontent
    exact (Option.some.inj hcontent).symm
  · intro agree w hw
    obtain ⟨w', hlast⟩ := exists_last fileWrites.field hw
    obtain ⟨hw', hpath⟩ := last_spec hlast
    have inForce := congrFun (fileWrites.apply_last_applyAll hlast files) w'.path
    have hpath' : w'.path = w.path := hpath
    rw [agree w hw w' hw' hpath'.symm, ← hpath', ← inForce]
    exact Function.update_self _ _ _

section Names

/-- A summary whose name and extension are parts of one file name. -/
structure Plain (s : Summary) : Prop where
  name : '/' ∉ s.name.toList
  ext : '/' ∉ s.ext.toList ∧ '.' ∉ s.ext.toList

variable {c : Char}

theorem notMem_pad2 (hc : c.isDigit = false) (n : Nat) : c ∉ (pad2 n).toList := by
  have hzero : c ∉ "0".toList := by
    intro h
    obtain rfl := List.mem_singleton.mp h
    cases hc
  rw [pad2]
  split
  · rw [String.toList_append, List.mem_append]
    exact not_or.mpr ⟨hzero, notMem_repr hc n⟩
  · exact notMem_repr hc n

theorem notMem_pad4 (hc : c.isDigit = false) (n : Nat) : c ∉ (pad4 n).toList := by
  have hzero : c ∉ "0".toList := by
    intro h
    obtain rfl := List.mem_singleton.mp h
    cases hc
  rw [pad4]
  split
  · rw [String.toList_append, List.mem_append, not_or]
    refine ⟨hzero, ?_⟩
    split
    · rw [String.toList_append, List.mem_append]
      exact not_or.mpr ⟨hzero, notMem_pad2 hc n⟩
    · exact notMem_repr hc n
  · exact notMem_repr hc n

theorem mark_cases (hc : c ∈ ['_', '/']) : c = '_' ∨ c = '/' := by
  simpa using hc

theorem notMem_zone (hc : c ∈ ['_', '/']) (t : Timestamp) : c ∉ t.zone.toList := by
  have hdigit : c.isDigit = false := by
    rcases mark_cases hc with rfl | rfl <;> decide
  rw [Timestamp.zone]
  split
  · rcases mark_cases hc with rfl | rfl <;> decide
  · simp only [String.toList_append, List.mem_append, not_or]
    refine ⟨⟨⟨?_, notMem_pad2 hdigit _⟩, ?_⟩, notMem_pad2 hdigit _⟩
    · split <;> rcases mark_cases hc with rfl | rfl <;> decide
    · rcases mark_cases hc with rfl | rfl <;> decide

/-- The text of a time has neither underscores nor slashes. -/
theorem notMem_rfc3339 (hc : c ∈ ['_', '/']) (t : Timestamp) : c ∉ t.rfc3339.toList := by
  have hdigit : c.isDigit = false := by
    rcases mark_cases hc with rfl | rfl <;> decide
  have hmark : c ∉ "-".toList ∧ c ∉ "T".toList ∧ c ∉ ":".toList := by
    rcases mark_cases hc with rfl | rfl <;> decide
  obtain ⟨hdash, hT, hcolon⟩ := hmark
  have h2 := notMem_pad2 hdigit
  simp only [Timestamp.rfc3339, String.toList_append, List.mem_append, not_or]
  exact ⟨⟨⟨⟨⟨⟨⟨⟨⟨⟨⟨notMem_pad4 hdigit _, hdash⟩, h2 _⟩, hdash⟩, h2 _⟩, hT⟩, h2 _⟩, hcolon⟩, h2 _⟩,
    hcolon⟩, h2 _⟩, notMem_zone hc t⟩

variable {s s' : Summary}

variable {ctx : ExecutorContext} {confName : String}

theorem summaryFile_inj (hs : Plain s) (hs' : Plain s')
    (h : summaryFile ctx confName s = summaryFile ctx confName s') :
    s.name = s'.name ∧ s.timestamp.rfc3339 = s'.timestamp.rfc3339 ∧ s.ext = s'.ext := by
  obtain ⟨hfile, hext⟩ := separated_inj hs.ext.2 hs'.ext.2 h
  obtain ⟨hname, htime⟩ := separated_inj (notMem_rfc3339 List.mem_cons_self _)
    (notMem_rfc3339 List.mem_cons_self _) hfile
  refine ⟨?_, htime, hext⟩
  rw [String.append_left_inj, String.append_left_inj] at hname
  exact hname

/-- The parts of a summary's file name other than its own. -/
structure PlainTest (ctx : ExecutorContext) (confName : String) : Prop where
  confName : '/' ∉ confName.toList
  testIdentifier : '/' ∉ ctx.testIdentifier.toList

theorem summaryFile_noSlash (ht : PlainTest ctx confName) (hs : Plain s) :
    '/' ∉ (summaryFile ctx confName s).toList := by
  have hmark : '/' ∉ "_".toList ∧ '/' ∉ ".".toList ∧ '/' ∉ "".toList := by decide
  have hdistinctor : '/' ∉ (testDistinctor ctx).toList := by
    rw [testDistinctor]
    split
    · rw [String.toList_append, List.mem_append, not_or]
      exact ⟨hmark.1, ht.testIdentifier⟩
    · exact hmark.2.2
  simp only [summaryFile, String.toList_append, List.mem_append, not_or]
  exact ⟨⟨⟨⟨⟨⟨hs.name, hmark.1⟩, ht.confName, hdistinctor⟩, hmark.1⟩,
    notMem_rfc3339 (List.mem_cons_of_mem _ List.mem_cons_self) _⟩, hmark.2.1⟩, hs.ext.1⟩

/-- A file name with an underscore and no slash is the last component. -/
theorem joinPath_file (dir : String) {file : String} (hslash : '/' ∉ file.toList)
    (hunderscore : '_' ∈ file.toList) :
    joinPath dir file =
      { cleanPath dir with components := (cleanPath dir).components ++ [file] } := by
  have hsplit : splitSlash file = [file] := by
    rw [splitSlash, List.splitOn_eq_singleton hslash, List.map_singleton, String.ofList_toList]
  have hother : ∀ s : String, '_' ∉ s.toList → file ≠ s := by
    rintro s hs rfl
    exact hs hunderscore
  rw [joinPath, hsplit, List.foldl_cons, List.foldl_nil, Path.push,
    if_neg (not_or.mpr ⟨hother "" (by decide), hother "." (by decide)⟩),
    if_neg (hother ".." (by decide))]

theorem summaryPath_parts (ht : PlainTest ctx confName) (hs : Plain s) (hs' : Plain s')
    (same : summaryPath ctx confName s = summaryPath ctx confName s') :
    s.name = s'.name ∧ s.timestamp.rfc3339 = s'.timestamp.rfc3339 ∧ s.ext = s'.ext := by
  have hunderscore : ∀ s : Summary, '_' ∈ (summaryFile ctx confName s).toList := by
    simp [summaryFile]
  rw [summaryPath, summaryPath, joinPath_file _ (summaryFile_noSlash ht hs) (hunderscore s),
    joinPath_file _ (summaryFile_noSlash ht hs') (hunderscore s')] at same
  have hlast := congrArg Path.components same
  exact summaryFile_inj hs hs' (List.singleton_inj.mp (List.append_cancel_left hlast))

/-- When two summaries go to one file. -/
inductive SameFile (ctx : ExecutorContext) (confName : String) (s s' : Summary) : Prop
  | sameParts (name : s.name = s'.name) (second : s.timestamp.rfc3339 = s'.timestamp.rfc3339)
      (ext : s.ext = s'.ext)
  | slashed (names : ¬ (PlainTest ctx confName ∧ Plain s ∧ Plain s'))
      (path : summaryPath ctx confName s = summaryPath ctx confName s')

theorem summaryPath_eq_iff_sameFile :
    summaryPath ctx confName s = summaryPath ctx confName s' ↔ SameFile ctx confName s s' := by
  constructor
  · intro same
    by_cases plain : PlainTest ctx confName ∧ Plain s ∧ Plain s'
    · obtain ⟨ht, hs, hs'⟩ := plain
      obtain ⟨name, second, ext⟩ := summaryPath_parts ht hs hs' same
      exact .sameParts name second ext
    · exact .slashed plain same
  · intro same
    cases same with
    | sameParts name second ext =>
      rw [summaryPath, summaryPath, summaryFile, summaryFile, name, second, ext]
    | slashed names path => exact path

end Names

section Reports

/-- What a call has to do with summaries. -/
inductive Report where
  | gathered (summaries : List Summary)
  | wrote (w : FileWrite) (err : Option String)

def report? : Event Reply → Option Report
  | ⟨.getSummaries, summaries⟩ => some (.gathered summaries)
  | ⟨.writeFile path content, err⟩ => some (.wrote ⟨path, content⟩ err)
  | _ => none

def reports (t : Trace) : List Report := t.filterMap report?

@[simp] theorem reports_append (t t' : Trace) : reports (t ++ t') = reports t ++ reports t' :=
  List.filterMap_append

theorem reports_cons_silent {e : Event Reply} {t : Trace} (silent : report? e = none) :
    reports (e :: t) = reports t :=
  List.filterMap_cons_none silent

def Silent (q : Request) : Prop := ∀ r, report? ⟨q, r⟩ = none

theorem ensures_silent {A : Type} {p : Program A} (h : p.Uses (fun _ _ => True) Silent) :
    p.Ensures fun t _ => reports t = [] := by
  intro t a he
  rw [reports, List.filterMap_eq_nil_iff]
  exact ensures_forall h t a he

def Report.attempt? : Report → Option FileWrite
  | .gathered _ => none
  | .wrote w _ => some w

def Report.done? : Report → Option FileWrite
  | .wrote w none => some w
  | _ => none

def summaryWrite (ctx : ExecutorContext) (confName : String) (s : Summary) : FileWrite :=
  ⟨summaryPath ctx confName s, s.content⟩

variable {ctx : ExecutorContext} {confName : String}

/-- The loop attempts one write for each summary, in order. -/
theorem writeSummaries_reports (hdir : ctx.reportDir ≠ "") (summaries : List Summary) :
    (writeSummaries ctx confName summaries).Ensures fun t _ =>
      (reports t).map Report.attempt? =
        summaries.map fun s => some (summaryWrite ctx confName s) := by
  induction summaries with
  | nil => exact ensures_done rfl
  | cons s rest ih =>
    rw [writeSummaries, if_neg hdir]
    refine ensures_request_bind fun r => ?_
    cases r with
    | some e =>
      refine ensures_bind ih fun t _ h => ensures_done ?_
      rw [List.append_nil]
      exact congrArg _ h
    | none =>
      intro t a he
      exact congrArg _ (ih t a he)

/-- The summaries are gathered at most once, and then each is written. -/
def Reported (ctx : ExecutorContext) (confName : String) (reported : List Report) : Prop :=
  reported = [] ∨ ∃ summaries writes, reported = .gathered summaries :: writes ∧
    writes.map Report.attempt? = summaries.map fun s => some (summaryWrite ctx confName s)

theorem runSteps_reports {conf : Config} (hdir : ctx.reportDir ≠ "") (monkey : Bool) :
    (runSteps ctx conf monkey).Ensures fun t _ => Reported ctx conf.name (reports t) := by
  refine ensures_bind (ensures_silent (uses_executeTestSteps (fun _ _ => rfl) 0 conf.steps))
    fun t₁ _ h₁ => ?_
  refine ensures_request_bind fun _ => ?_
  have waits : (waitIfStarted monkey).Uses (fun _ _ => True) Silent := by
    cases monkey
    · trivial
    · exact ⟨fun _ => rfl, fun _ _ => trivial⟩
  refine ensures_bind (ensures_silent waits) fun t₂ _ h₂ => ?_
  refine ensures_request_bind fun summaries => ?_
  refine ensures_bind (writeSummaries_reports hdir summaries) fun t₃ _ h₃ => ensures_done ?_
  refine .inr ⟨summaries, reports t₃, ?_, h₃⟩
  rw [List.append_nil, reports_append, h₁, reports_cons_silent rfl, reports_append, h₂]
  rfl

theorem executeTest_reports {conf : Config} (hdir : ctx.reportDir ≠ "") :
    (executeTest ctx conf).Ensures fun t _ => Reported ctx conf.name (reports t) := by
  have started := ensures_silent (p := initChaosMonkey conf.chaosMonkey)
    (uses_initChaosMonkey fun _ _ _ => rfl)
  have prepared := ensures_silent (p := prepareTestNamespaces conf.namespaceConfig)
    (uses_prepareTestNamespaces (fun _ => rfl) (fun _ _ _ => rfl) (fun _ _ _ _ => rfl))
  have set := ensures_silent (p := setupDependencies ctx 0 conf.dependencies noDependencies)
    (uses_setupDependencies (fun _ _ => rfl) (fun _ => rfl) (fun _ _ _ => rfl)
      (fun _ _ _ => rfl) 0 conf.dependencies noDependencies)
  intro t errs he
  obtain ⟨t, t', dm, rfl, body, cleanup⟩ := executeTest_run ctx conf t errs he
  have cleaned : reports t' = [] := ensures_silent (uses_cleanup (fun _ => rfl) (fun _ _ => rfl)
    (fun _ => rfl) (fun _ _ _ => rfl) conf.namespaceConfig dm) t' () cleanup
  have same : reports (⟨.setAutomanagedNamespacePrefix conf.namespaceConfig.namePrefix, ()⟩ ::
      (t ++ t')) = reports t := by
    rw [reports_cons_silent rfl, reports_append, cleaned, List.append_nil]
  rw [same]
  cases body with
  | monkeyRefused init =>
    left
    rw [reports_cons_silent rfl, reports_append, started _ _ init]
    rfl
  | namespacesRefused init prepare =>
    left
    rw [reports_cons_silent rfl, reports_append, started _ _ init, prepared _ _ prepare]
    rfl
  | setupFailed init prepare setup =>
    left
    rw [reports_cons_silent rfl, reports_append, reports_append, reports_append,
      started _ _ init, prepared _ _ prepare, set _ _ setup]
    rfl
  | @completed t₁ t₂ t₃ t₄ _ _ _ init prepare setup steps =>
    rw [reports_cons_silent rfl, reports_append, reports_append, reports_append,
      started _ _ init, prepared _ _ prepare, set _ _ setup]
    exact runSteps_reports hdir _ _ _ steps

theorem written?_eq (e : Event Reply) : written? e = (report? e).bind Report.done? := by
  obtain ⟨q, r⟩ := e
  cases q with
  | writeFile path content => cases r <;> rfl
  | _ => rfl

theorem filterMap_written? (t : Trace) :
    t.filterMap written? = (reports t).filterMap Report.done? := by
  rw [reports, List.filterMap_filterMap]
  exact congrFun (congrArg _ (funext written?_eq)) t

/-- What follows the gathering are writes. -/
theorem gathered_unique {summaries ss : List Summary} {writes : List Report}
    (hw : writes.map Report.attempt? = ss.map fun s => some (summaryWrite ctx confName s))
    (hmem : .gathered summaries ∈ Report.gathered ss :: writes) : summaries = ss := by
  rcases List.mem_cons.mp hmem with heq | hmem
  · exact Report.gathered.inj heq
  · have hnone : none ∈ writes.map Report.attempt? := List.mem_map.mpr ⟨_, hmem, rfl⟩
    rw [hw] at hnone
    obtain ⟨s, -, hsome⟩ := List.mem_map.mp hnone
    cases hsome

/-- When no write fails, the writes carried out are those attempted. -/
theorem done_of_attempts {writes : List Report} {ws : List FileWrite}
    (attempted : writes.map Report.attempt? = ws.map some)
    (succeeded : ∀ w e, .wrote w (some e) ∉ writes) : writes.filterMap Report.done? = ws := by
  induction writes generalizing ws with
  | nil =>
    cases ws with
    | nil => rfl
    | cons w ws => cases attempted
  | cons r writes ih =>
    cases ws with
    | nil => cases attempted
    | cons w ws =>
      rw [List.map_cons, List.map_cons, List.cons.injEq] at attempted
      have hrest := ih attempted.2 fun w e hmem => succeeded w e (List.mem_cons_of_mem _ hmem)
      rcases r with _ | ⟨w', err⟩
      · cases attempted.1
      · obtain rfl := Option.some.inj attempted.1
        cases err with
        | some e => exact absurd List.mem_cons_self (succeeded w' e)
        | none => exact congrArg (w' :: ·) hrest

end Reports

/-- In a test that writes its summaries without an error, every summary is
found in its file if and only if summaries that go to one file have the same
content. -/
theorem summaries_found_iff {ctx : ExecutorContext} {conf : Config} {t : Trace}
    {errs : List TestError} (executes : Exec (executeTest ctx conf) t errs)
    {summaries : List Summary} (gathered : ⟨.getSummaries, summaries⟩ ∈ t)
    (reportDir : ctx.reportDir ≠ "")
    (writable : ∀ path content e, ⟨.writeFile path content, some e⟩ ∉ t) (files : Files) :
    (∀ s ∈ summaries, filesAfter files t (summaryPath ctx conf.name s) = some s.content) ↔
      ∀ s ∈ summaries, ∀ s' ∈ summaries, SameFile ctx conf.name s s' → s.content = s'.content := by
  have hgathered : .gathered summaries ∈ reports t := List.mem_filterMap.mpr ⟨_, gathered, rfl⟩
  have hsucceeded : ∀ w e, .wrote w (some e) ∉ reports t := by
    intro w e hmem
    obtain ⟨⟨q, r⟩, hcall, hreport⟩ := List.mem_filterMap.mp hmem
    cases q with
    | writeFile path content =>
      cases hreport
      exact writable path content e hcall
    | _ => cases hreport
  have hwrites : t.filterMap written? = summaries.map (summaryWrite ctx conf.name) := by
    rw [filterMap_written?]
    rcases executeTest_reports reportDir t errs executes with hnone | ⟨ss, writes, hall, hw⟩
    · rw [hnone] at hgathered
      cases hgathered
    · rw [hall] at hgathered hsucceeded ⊢
      obtain rfl := gathered_unique hw hgathered
      rw [List.filterMap_cons_none rfl]
      refine done_of_attempts (hw.trans (List.map_map ..).symm) fun w e hmem => ?_
      exact hsucceeded w e (List.mem_cons_of_mem _ hmem)
  rw [filesAfter, hwrites]
  have hfound := applyAll_found_iff (summaries.map (summaryWrite ctx conf.name)) files
  simp only [List.forall_mem_map, summaryWrite, summaryPath_eq_iff_sameFile] at hfound
  exact hfound

section Sample

def sampleContext : ExecutorContext := ⟨"/tmp/report", "", fun _ => ""⟩

def gatheredAt : Timestamp := ⟨2024, 5, 6, 7, 8, 9, 0, 0⟩

def usage (content : String) : Summary := ⟨"ResourceUsageSummary", "json", gatheredAt, content⟩

def timer : Summary := ⟨"Timer", "json", gatheredAt, "1"⟩

/-- The calls of a test that gathers two summaries. -/
def sampleTrace (a b : Summary) : Trace :=
  [⟨.setAutomanagedNamespacePrefix "test", ()⟩, ⟨.initFactory [], ()⟩,
    ⟨.listAutomanagedNamespaces, .ok ([], [])⟩,
    ⟨.createAutomanagedNamespaces 1 false true, none⟩, ⟨.closeStopCh, ()⟩,
    ⟨.getSummaries, [a, b]⟩,
    ⟨.writeFile (summaryPath sampleContext "load" a) a.content, none⟩,
    ⟨.writeFile (summaryPath sampleContext "load" b) b.content, none⟩,
    ⟨.dispose, ()⟩, ⟨.deleteAutomanagedNamespaces 0, []⟩]

theorem sample_executes (a b : Summary) :
    Exec (executeTest sampleContext plainConfig) (sampleTrace a b) [] :=
  run_exec (succeeds .timedOut [a, b]) (executeTest sampleContext plainConfig) ()

theorem sample_writable (a b : Summary) (path : Path) (content e : String) :
    ⟨.writeFile path content, some e⟩ ∉ sampleTrace a b := by
  intro h
  simp [sampleTrace] at h

theorem sample_test : PlainTest sampleContext "load" := by
  constructor <;> decide

theorem usage_plain (content : String) : Plain (usage content) := by
  have hname : '/' ∉ "ResourceUsageSummary".toList := by decide
  have hext : '/' ∉ "json".toList ∧ '.' ∉ "json".toList := by decide
  exact ⟨hname, hext⟩

theorem timer_plain : Plain timer := by
  constructor <;> decide

theorem distinct_summaries_found :
    filesAfter (fun _ => none) (sampleTrace (usage "a") timer)
        (summaryPath sampleContext "load" (usage "a")) = some "a" ∧
      filesAfter (fun _ => none) (sampleTrace (usage "a") timer)
        (summaryPath sampleContext "load" timer) = some "1" := by
  have hplain : ∀ s ∈ [usage "a", timer], Plain s := by
    intro s hs
    rcases List.mem_pair.mp hs with rfl | rfl
    · exact usage_plain "a"
    · exact timer_plain
  have agree : ∀ s ∈ [usage "a", timer], ∀ s' ∈ [usage "a", timer],
      SameFile sampleContext "load" s s' → s.content = s'.content := by
    intro s hs s' hs' same
    cases same with
    | sameParts name second ext =>
      revert s s'
      decide
    | slashed names path => exact absurd ⟨sample_test, hplain s hs, hplain s' hs'⟩ names
  have gathered : ⟨.getSummaries, [usage "a", timer]⟩ ∈ sampleTrace (usage "a") timer := by
    simp [sampleTrace]
  have found := (summaries_found_iff (sample_executes _ _) gathered (by decide)
    (sample_writable _ _) fun _ => none).mpr agree
  exact ⟨found _ List.mem_cons_self, found _ (List.mem_cons_of_mem _ List.mem_cons_self)⟩

/-- Of two measurements gathered in the same second the first is lost. -/
theorem summary_of_same_second_lost :
    Exec (executeTest sampleContext plainConfig) (sampleTrace (usage "a") (usage "b")) [] ∧
      filesAfter (fun _ => none) (sampleTrace (usage "a") (usage "b"))
        (summaryPath sampleContext "load" (usage "a")) = some "b" := by
  refine ⟨sample_executes _ _, ?_⟩
  decide +kernel

end Sample

end SummaryFiles
