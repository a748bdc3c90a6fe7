import RenderPlan.Proofs.DocumentFaults
import RenderPlan.Proofs.FailedCompileAll
import RenderPlan.Proofs.ReportSections
import RenderPlan.Studio.Session

/-!
# A session reports everything or nothing

A session that is given a file reads it, resolves the document in it, compiles every scene, and only
then writes the report. So it writes all of the report or none of it. What a failure is reported
with depends on how far the session has come: on the file, on the first fault of the document, or on
the first scene that does not compile, in the order of the names and not of the document.

## Main definitions

* `Document.Parts.HeldBy`, `Document.Unloaded`: the file holds a document that resolves, or why not
* `Studio.IsReport`: the text is the report on some catalogs and scenes
* `Studio.NamesCatalog`: the arguments name one file to report on
* `Studio.Ends`: how a session ends that is given a file

## Main results

* `Library.Refines.exists_compileAll_eq_ok`, `Library.Refines.compileAll_eq_error`: the plans of a
  library are given exactly if every scene compiles
* `Library.Refines.compileAll_of_new`: the plans of a library that has not cached any
* `Studio.ofFile_eq_ok_iff`, `Studio.ofFile_eq_error_iff`: what is loaded from a file
* `Studio.exists_report_eq_ok`, `Studio.report_eq_error`: the report on what is loaded
* `Studio.session_all_or_nothing`: what a session leaves that is given a file
-/

namespace RenderPlan

/-- Tables with the same names have their values side by side. -/
theorem NameTable.forall₂_values {α β : Type} {s : NameTable α} {t : NameTable β}
    {R : α → β → Prop} (hkeys : s.keys = t.keys)
    (h : ∀ name a b, s.get? name = some a → t.get? name = some b → R a b) :
    List.Forall₂ R s.values t.values := by
  rw [values, values, List.forall₂_map_left_iff, List.forall₂_map_right_iff, List.forall₂_iff_get]
  refine ⟨by simpa [keys] using congrArg List.length hkeys, fun i hi hj => ?_⟩
  have hname : (s.entries.get ⟨i, hi⟩).1 = (t.entries.get ⟨i, hj⟩).1 := by
    simpa [keys, hi, hj] using congrArg (·[i]?) hkeys
  refine h _ _ _ (get?_eq_some_iff.mpr (List.get_mem ..)) (get?_eq_some_iff.mpr ?_)
  rw [hname]
  exact List.get_mem ..

/-! ## All plans of a library -/

namespace Library

variable {memory : Memory} {l : Library} {r : Registry}

namespace Refines

/-- **All plans are given** when every scene compiles. -/
theorem exists_compileAll_eq_ok (h : l.Refines memory r)
    (hcompile : l.scenes.Forall fun _ scene => ∃ p, l.catalogs.value.compile scene = .ok p) :
    ∃ plans, l.compileAll.1 = .ok plans := by
  have hpending : ∀ scene ∈ l.survey.pending,
      ∃ p, scene.compile l.catalogs.value l.index = .ok p := by
    intro scene hscene
    rw [h.index]
    exact hcompile _ _ (h.mem_pending_iff.mp hscene).1
  obtain ⟨plans, left, hsettled, -⟩ :=
    compilePending_of_compile l.survey.pending l.survey.plans l.survey.cache h.nodup_pending hpending
  refine ⟨plans, ?_⟩
  rw [compileAll_eq_settle, Survey.settle, hsettled]
  rfl

/-- **No plan is given** when some scene does not compile, but the error of the first such. -/
theorem compileAll_eq_error (h : l.Refines memory r) {name : String} {broken : Scene}
    (hbroken : l.scenes.FirstViolation
      (fun _ scene => ∃ p, l.catalogs.value.compile scene = .ok p) name broken) :
    ∃ failing e, l.scenes.FirstViolation
        (fun _ scene => ∃ p, l.catalogs.value.compile scene = .ok p) failing.name failing ∧
      l.catalogs.value.compile failing = .error e ∧ l.compileAll.1 = .error (.compile e) := by
  obtain ⟨hregistered, hfails, -⟩ := hbroken
  cases hcompile : l.catalogs.value.compile broken with
  | ok p => exact absurd ⟨p, hcompile⟩ hfails
  | error e₀ =>
    obtain ⟨before, failing, after, e, hsplit, hbefore, hfails⟩ :=
      h.exists_pending_split hregistered hcompile
    obtain ⟨left, hall, -⟩ := h.compileAll_of_split hsplit hbefore hfails
    exact ⟨failing, e, h.firstViolation_of_split hsplit hbefore hfails, hfails,
      congrArg Prod.fst hall⟩

/-- **The plans of a new library** are those of its scenes, side by side. -/
theorem compileAll_of_new (h : l.Refines memory r) (hnew : l.cache.entries = .empty)
    {plans : NameTable (Shared Plan)} (hplans : l.compileAll.1 = .ok plans) :
    List.Forall₂ (fun scene plan => l.catalogs.value.compile scene = .ok plan.value)
      l.scenes.values plans.values := by
  have hkeys : l.scenes.keys = plans.keys := by
    refine (NameTable.lists_keys fun _ => Iff.rfl).unique (NameTable.lists_keys fun name => ?_)
    have hnone := (h.compileAll_served hplans name).1
    rw [← h.scenes] at hnone
    rw [← Option.ne_none_iff_exists', ← Option.ne_none_iff_exists']
    exact not_congr hnone
  refine NameTable.forall₂_values hkeys fun name scene plan hscene hplan => ?_
  obtain rfl : scene.name = name := h.named name scene hscene
  have hvalue : scene ∈ l.scenes.values := h.mem_values_iff_registered.mpr hscene
  have hstale : l.cache.fresh? l.catalogs scene = none := by
    rw [PlanCache.fresh?, hnew]
    rfl
  obtain ⟨hrenews, hgiven⟩ := h.compileAll_renews hvalue
  have hentry := hgiven plans hplans
  rw [hplan] at hentry
  -- nothing was cached, so the plan is that of a new entry, and the entry is valid
  rcases hrenews with hleft | ⟨-, p, -, hleft⟩
  · rw [hleft, hstale] at hentry
    cases hentry
  · rw [hleft] at hentry
    cases hentry
    have hvalid := h.compileAll_serves.1.cache _ _ hleft
    rwa [PlanCache.Entry.Valid, ← h.current] at hvalid

end Refines

end Library

namespace Document

/-! ## The library of a document -/

section Parts

/-- The library of catalogs and scenes is a new one after the scenes have been set. -/
theorem Parts.library_refines (parts : Parts) :
    parts.library.Refines (fun _ => parts.catalogs)
      (Registry.run (fun _ => parts.catalogs) 0 (parts.scenes.map .setScene)) := by
  have hrun : parts.library = Library.run (fun _ => parts.catalogs) 0
      (parts.scenes.map .setScene) := by
    rw [Library.run, List.foldl_map]
    rfl
  rw [hrun]
  exact Library.run_refines ..

theorem Parts.catalogs_library (parts : Parts) : parts.library.catalogs.value = parts.catalogs :=
  congrArg Shared.value Library.catalogs_ofParts

theorem Parts.cache_library (parts : Parts) : parts.library.cache = {} := by
  rw [library, Library.ofParts]
  -- the latest scene comes last, so the induction is from the end of the list
  induction parts.scenes using List.reverseRecOn with
  | nil => rfl
  | append_singleton scenes last ih =>
    rw [List.foldl_concat]
    exact ih

variable {parts : Parts} (hnames : (parts.scenes.map Scene.name).Nodup)
include hnames

theorem Parts.forall_library_iff {P : Scene → Prop} :
    (parts.library.scenes.Forall fun _ scene => P scene) ↔ ∀ scene ∈ parts.scenes, P scene := by
  simp only [NameTable.Forall, library, Library.scenes_ofParts_iff hnames]
  exact ⟨fun h scene hscene => h scene.name scene ⟨hscene, rfl⟩,
    fun h _ scene hscene => h scene hscene.1⟩

end Parts

/-! ## Documents in files -/

/-- The file holds a text, which is a document that resolves to the catalogs and scenes. -/
def Parts.HeldBy (parts : Parts) (file : Option ByteArray) : Prop :=
  ∃ (text : String) (d : Document), file = some text.toUTF8 ∧ read? text = some d ∧
    d.resolve = .ok parts

/-- **Why a file does not load**: it holds no text, or its text is no document, or the document has
a first fault. -/
inductive Unloaded (path : String) (file : Option ByteArray) : LoadError → Prop
  | unreadable (noText : ∀ text : String, file ≠ some text.toUTF8) :
      Unloaded path file (.unreadableFile path)
  | malformed {text : String} (held : file = some text.toUTF8) (noDocument : read? text = none) :
      Unloaded path file .malformed
  | unresolved {text : String} {d : Document} {fault : Fault} (held : file = some text.toUTF8)
      (document : read? text = some d) (first : d.FirstFault fault) :
      Unloaded path file (.unresolved fault)

end Document

namespace Studio

open Document

variable {path : String} {file : Option ByteArray} {parts : Parts}

theorem ofFile_some {text : String} :
    Parts.ofFile path (some text) =
      match read? text with
      | none => .error .malformed
      | some d => d.resolve.mapError .unresolved := by
  rw [Parts.ofFile, Document.ofFile, Document.ofText]
  cases read? text <;> rfl

/-- **A file loads** when it holds a document that resolves. -/
theorem ofFile_eq_ok_iff :
    Parts.ofFile path (fileText? file) = .ok parts ↔ parts.HeldBy file := by
  simp only [Parts.HeldBy, ← fileText?_eq_some_iff]
  cases fileText? file with
  | none =>
    constructor
    · intro h
      cases h
    · rintro ⟨_, _, h, -⟩
      cases h
  | some text =>
    rw [ofFile_some]
    cases hread : read? text with
    | none => simp [hread]
    | some d => simp [hread, mapError_eq_ok_iff]

/-- **A file does not load** for one of three reasons. -/
theorem ofFile_eq_error_iff {e : LoadError} :
    Parts.ofFile path (fileText? file) = .error e ↔ Unloaded path file e := by
  cases htext : fileText? file with
  | none =>
    have hnone : ∀ text : String, file ≠ some text.toUTF8 := by
      intro text hheld
      cases htext.symm.trans (fileText?_eq_some_iff.mpr hheld)
    constructor
    · intro h
      cases h
      exact .unreadable hnone
    · rintro (⟨-⟩ | ⟨hheld, -⟩ | ⟨hheld, -, -⟩)
      · rfl
      · exact absurd hheld (hnone _)
      · exact absurd hheld (hnone _)
  | some text =>
    have hheld := fileText?_eq_some_iff.mp htext
    -- the file holds no other text
    have hunique {other : String} (hother : file = some other.toUTF8) : other = text := by
      rw [← fileText?_eq_some_iff, htext] at hother
      exact (Option.some.inj hother).symm
    rw [ofFile_some]
    constructor
    · intro h
      cases hread : read? text with
      | none =>
        rw [hread] at h
        cases h
        exact .malformed hheld hread
      | some d =>
        rw [hread] at h
        obtain ⟨fault, hfault, rfl⟩ := mapError_eq_error_iff.mp h
        exact .unresolved hheld hread (resolve_eq_error_iff.mp hfault)
    · rintro (⟨hnone⟩ | ⟨hother, hread⟩ | ⟨hother, hread, hfirst⟩)
      · exact absurd hheld (hnone text)
      · rw [← hunique hother, hread]
      · rw [← hunique hother, hread]
        exact mapError_eq_error_iff.mpr ⟨_, resolve_eq_error_iff.mpr hfirst, rfl⟩

/-! ## The report on a document -/

/-- **The text is the report** on some catalogs and scenes: the numbers of declarations, the items
without a trigger, and a section for each scene in the order of the names. -/
def IsReport (parts : Parts) (text : String) : Prop :=
  ∃ (scenes : List Scene) (untriggered : List String) (sections : List (List String)),
    scenes.Perm parts.scenes ∧ (scenes.map Scene.name).Pairwise (· < ·) ∧
    Lists untriggered (fun name => ∃ item, parts.catalogs.items.get? name = some item ∧
      ∀ trigger, trigger ∉ item.triggers) ∧
    List.Forall₂ (IsSection parts.catalogs) scenes sections ∧
    text = unlines (["", countsLine parts.catalogs scenes.length] ++
      lineUnlessEmpty "  untriggered items: " untriggered ++ sections.flatten ++ [""])

section Report

variable (hnames : (parts.scenes.map Scene.name).Nodup)
include hnames

/-- **A report is written** when every scene compiles. -/
theorem exists_report_eq_ok
    (hcompile : ∀ scene ∈ parts.scenes, ∃ p, parts.catalogs.compile scene = .ok p) :
    ∃ text, report parts.library = .ok text ∧ IsReport parts text := by
  have h := parts.library_refines
  obtain ⟨plans, hplans⟩ := h.exists_compileAll_eq_ok <| by
    rw [parts.catalogs_library]
    exact (Parts.forall_library_iff hnames).mpr hcompile
  -- the cache of a new library is empty, so every plan is the one just compiled
  have hsections := h.compileAll_of_new (by rw [parts.cache_library]) hplans
  rw [parts.catalogs_library] at hsections
  refine ⟨_, congrArg (Except.map _) hplans, parts.library.scenes.values,
    (TriggerIndex.build parts.catalogs.items).untriggered parts.catalogs.items,
    plans.values.map fun plan => planLines plan.value, Library.values_ofParts_perm hnames, ?_,
    lists_untriggered parts.catalogs, ?_, ?_⟩
  · rw [h.map_name_values]
    exact NameTable.pairwise_keys _
  · refine List.forall₂_map_right_iff.mpr (hsections.imp fun scene plan hplan => ?_)
    exact isSection_planLines hplan
  · show unlines (reportLines parts.library (plans.values.map Shared.value)) = _
    rw [reportLines, h.index, parts.catalogs_library, List.length_map, ← hsections.length_eq,
      List.flatMap_map, List.flatMap_def]

/-- **No report is written** when some scene does not compile, but the error of the first such. -/
theorem report_eq_error
    (hbroken : ¬∀ scene ∈ parts.scenes, ∃ p, parts.catalogs.compile scene = .ok p) :
    ∃ failing ∈ parts.scenes, ∃ e, parts.catalogs.compile failing = .error e ∧
      (∀ scene ∈ parts.scenes, scene.name < failing.name →
        ∃ p, parts.catalogs.compile scene = .ok p) ∧
      report parts.library = .error (.compile e) := by
  have h := parts.library_refines
  rcases parts.library.scenes.forall_or_exists_firstViolation
    fun _ scene => ∃ p, parts.catalogs.compile scene = .ok p with hall | ⟨name, broken, hfirst⟩
  · exact absurd ((Parts.forall_library_iff hnames).mp hall) hbroken
  · rw [← parts.catalogs_library] at hfirst
    obtain ⟨failing, e, ⟨hregistered, -, hlesser⟩, hfails, hall⟩ := h.compileAll_eq_error hfirst
    rw [parts.catalogs_library] at hfails hlesser
    refine ⟨failing, ((Library.scenes_ofParts_iff hnames).mp hregistered).1, e, hfails, ?_,
      congrArg (Except.map _) hall⟩
    exact fun scene hscene hlt =>
      hlesser _ hlt scene ((Library.scenes_ofParts_iff hnames).mpr ⟨hscene, rfl⟩)

end Report

/-! ## Arguments -/

/-- The argument says that more is to be logged. -/
def IsVerbosityFlag (argument : String) : Prop := argument = "-v" ∨ argument = "--verbose"

/-- **The arguments name one file** to report on, and besides say only that more is to be logged.
What begins with a dash is no file. -/
def NamesCatalog (path : String) (arguments : List String) : Prop :=
  path.toList.head? ≠ some '-' ∧ ∃ before after, arguments = before ++ path :: after ∧
    ∀ argument ∈ before ++ after, IsVerbosityFlag argument

theorem ofString_of_isVerbosityFlag {argument : String} (h : IsVerbosityFlag argument) :
    Argument.ofString argument = .verbose :=
  if_pos h

theorem ofString_of_noDash (h : path.toList.head? ≠ some '-') :
    Argument.ofString path = .catalog path := by
  have hne (flag : String) (hflag : flag.toList.head? = some '-') : path ≠ flag := by
    rintro rfl
    exact h hflag
  rw [Argument.ofString, if_neg (not_or.mpr ⟨hne _ rfl, hne _ rfl⟩), if_neg (hne _ rfl),
    if_neg (not_or.mpr ⟨hne _ rfl, hne _ rfl⟩), if_neg h]

/-- Flags for more to be logged change nothing else that the arguments set. -/
theorem parseFrom_flags (rest : List Argument) :
    ∀ (flags : List String) (options : Options), (∀ flag ∈ flags, IsVerbosityFlag flag) →
      ∃ verbose, parseFrom (flags.map Argument.ofString ++ rest) options =
        parseFrom rest { options with verbose }
  | [], options, _ => ⟨options.verbose, rfl⟩
  | flag :: flags, options, h => by
    obtain ⟨hflag, hflags⟩ := List.forall_mem_cons.mp h
    rw [List.map_cons, List.cons_append, ofString_of_isVerbosityFlag hflag, parseFrom]
    exact parseFrom_flags rest flags _ hflags

theorem parseArguments_of_namesCatalog {arguments : List String}
    (h : NamesCatalog path arguments) :
    ∃ verbose, parseArguments arguments = .ok (.run { verbose, catalog := some path }) := by
  obtain ⟨hpath, before, after, rfl, hflags⟩ := h
  obtain ⟨hbefore, hafter⟩ := List.forall_mem_append.mp hflags
  obtain ⟨verbose, hparse⟩ :=
    parseFrom_flags ((path :: after).map Argument.ofString) before {} hbefore
  rw [parseArguments, List.map_append, hparse, List.map_cons, ofString_of_noDash hpath, parseFrom]
  have hrest := parseFrom_flags [] after { verbose, catalog := some path } hafter
  rw [List.append_nil] at hrest
  exact hrest

/-! ## Sessions -/

/-- **How a session ends** that is given a file: without anything written, if the file does not load
or some scene does not compile, and else with the report. -/
inductive Ends (path : String) (file : Option ByteArray) : Outcome → Prop
  | unloaded {e : LoadError} (fault : Unloaded path file e) :
      Ends path file ⟨1, "", some (.load path e)⟩
  | broken {parts : Parts} {scene : Scene} {e : CompileError} (held : parts.HeldBy file)
      (declared : scene ∈ parts.scenes) (fails : parts.catalogs.compile scene = .error e)
      (first : ∀ other ∈ parts.scenes, other.name < scene.name →
        ∃ p, parts.catalogs.compile other = .ok p) :
      Ends path file ⟨1, "", some (.compile (.compile e))⟩
  | reported {parts : Parts} {text : String} (held : parts.HeldBy file)
      (compile : ∀ scene ∈ parts.scenes, ∃ p, parts.catalogs.compile scene = .ok p)
      (report : IsReport parts text) : Ends path file ⟨0, text, none⟩

/-- A file holds only one document. -/
theorem heldBy_unique {parts parts' : Parts} (h : parts.HeldBy file) (h' : parts'.HeldBy file) :
    parts = parts' := by
  have hload : Parts.ofFile "" (fileText? file) = .ok parts := ofFile_eq_ok_iff.mpr h
  rw [ofFile_eq_ok_iff.mpr h'] at hload
  cases hload
  rfl

namespace Ends

variable {outcome : Outcome} (h : Ends path file outcome)
include h

/-- **A session succeeds** when the file holds a document all of whose scenes compile. -/
theorem exitCode_eq_zero_iff :
    outcome.exitCode = 0 ↔ ∃ parts : Parts, parts.HeldBy file ∧
      ∀ scene ∈ parts.scenes, ∃ p, parts.catalogs.compile scene = .ok p := by
  cases h with
  | unloaded fault =>
    refine ⟨nofun, ?_⟩
    rintro ⟨parts, hheld, -⟩
    cases (ofFile_eq_error_iff.mpr fault).symm.trans (ofFile_eq_ok_iff.mpr hheld)
  | broken held declared fails first =>
    refine ⟨nofun, ?_⟩
    rintro ⟨_, hheld, hcompile⟩
    cases heldBy_unique held hheld
    obtain ⟨p, hp⟩ := hcompile _ declared
    cases fails.symm.trans hp
  | reported held compile report => exact ⟨fun _ => ⟨_, held, compile⟩, fun _ => rfl⟩

/-- **A session that fails** has written nothing. -/
theorem output_of_exitCode_ne_zero (hcode : outcome.exitCode ≠ 0) :
    outcome.exitCode = 1 ∧ outcome.output = "" := by
  cases h with
  | unloaded fault => exact ⟨rfl, rfl⟩
  | broken held declared fails first => exact ⟨rfl, rfl⟩
  | reported held compile report => exact absurd rfl hcode

end Ends

theorem session_of_namesCatalog {files : String → Option ByteArray} {arguments : List String}
    (h : NamesCatalog path arguments) :
    session (m := Id) files arguments =
      .ofAnswer (reportOn (some (path, fileText? (files path)))) := by
  obtain ⟨verbose, hparse⟩ := parseArguments_of_namesCatalog h
  rw [session, run, hparse]
  rfl

/-- **A report on a file** ends in one of three ways. -/
theorem ends_reportOn (path : String) (file : Option ByteArray) :
    Ends path file (.ofAnswer (reportOn (some (path, fileText? file)))) := by
  rw [reportOn, libraryOf]
  cases hload : Parts.ofFile path (fileText? file) with
  | error e => exact .unloaded (ofFile_eq_error_iff.mp hload)
  | ok parts =>
    have hheld := ofFile_eq_ok_iff.mp hload
    have hnames : (parts.scenes.map Scene.name).Nodup := by
      obtain ⟨text, d, -, -, hresolve⟩ := hheld
      exact nodup_names_of_resolve hresolve
    show Ends path file (.ofAnswer ((report parts.library).mapError .compile))
    by_cases hcompile : ∀ scene ∈ parts.scenes, ∃ p, parts.catalogs.compile scene = .ok p
    · obtain ⟨text, hreport, hsections⟩ := exists_report_eq_ok hnames hcompile
      rw [hreport]
      exact .reported hheld hcompile hsections
    · obtain ⟨failing, hdeclared, e, hfails, hfirst, hreport⟩ := report_eq_error hnames hcompile
      rw [hreport]
      exact .broken hheld hdeclared hfails hfirst

/-- A document with two scenes that draw items that are not there. -/
def twoBroken : Parts where
  catalogs := {}
  scenes := [{ name := "second", render := ["edges"] }, { name := "first", render := ["dots"] }]

/-- The same document in a file. -/
def twoBrokenFile : ByteArray := String.toUTF8
  "\x7b\"scenes\":[\x7b\"name\":\"second\",\"render\":[\"edges\"]\x7d,\x7b\"name\":\"first\",\"render\":[\"dots\"]\x7d]\x7d"

theorem twoBroken_heldBy : twoBroken.HeldBy (some twoBrokenFile) :=
  ⟨_, ofParts twoBroken, rfl, by decide +kernel, by decide⟩

end Studio

end RenderPlan
