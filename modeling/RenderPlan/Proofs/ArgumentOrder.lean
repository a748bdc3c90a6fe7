import RenderPlan.Proofs.SessionOutcome

/-!
# The order of arguments

Arguments are handled from left to right. The leftmost that asks for help, is an unknown flag or is
a second file settles what the arguments ask for, whatever comes after it. Arguments among which
there is none such are accepted, and then their order does not matter, nor how often a flag is
given.

## Main definitions

* `Studio.Settles`: an argument settles the answer, after others that did not
* `Studio.Decides`: the answer to arguments, described by the leftmost argument that settles it
* `Studio.Rearranges`: arguments in another order, or with a flag given once more

## Main results

* `Studio.unsettled_iff`: the arguments among which none settles the answer
* `Studio.parseFrom_of_unsettled`: what such arguments have set when the next is handled
* `Studio.parseArguments_decided`: the leftmost argument that settles the answer decides it
-/

namespace RenderPlan.Studio

/-! ## Arguments that settle the answer -/

/-- The argument is taken for a flag. -/
def IsFlag (argument : String) : Prop := argument.toList.head? = some '-'

instance (argument : String) : Decidable (IsFlag argument) := inferInstanceAs (Decidable (_ = _))

/-- The argument asks for help. -/
def AsksForHelp (argument : String) : Prop := argument = "-h" ∨ argument = "--help"

instance (argument : String) : Decidable (AsksForHelp argument) :=
  inferInstanceAs (Decidable (_ ∨ _))

instance (argument : String) : Decidable (IsVerbosityFlag argument) :=
  inferInstanceAs (Decidable (_ ∨ _))

/-- The argument is a flag that sets an option. -/
def SetsOption (argument : String) : Prop := IsVerbosityFlag argument ∨ argument = "--dump"

/-- The arguments that name files. -/
def files (arguments : List String) : List String :=
  arguments.filter fun argument => ¬IsFlag argument

/-- **An argument settles the answer**, given those to its left: it asks for help, is a flag that is
not known, or is the second that names a file. -/
inductive Settles (before : List String) (argument : String) : Except UsageError Request → Prop
  | help (help : AsksForHelp argument) : Settles before argument (.ok .help)
  | unknownFlag (flag : IsFlag argument) (known : ¬SetsOption argument)
      (help : ¬AsksForHelp argument) : Settles before argument (.error (.unknownFlag argument))
  | secondCatalog (file : ¬IsFlag argument) {path : String} (one : files before = [path]) :
      Settles before argument (.error .secondCatalog)

/-- No argument settles the answer. -/
def Unsettled (arguments : List String) : Prop :=
  ∀ before argument after, arguments = before ++ argument :: after →
    ∀ answer, ¬Settles before argument answer

/-- The options say what the arguments set: a flag counts if it is given at all. -/
structure Options.AreSetBy (options : Options) (arguments : List String) : Prop where
  verbose : options.verbose = true ↔ ∃ argument ∈ arguments, IsVerbosityFlag argument
  dump : options.dump = true ↔ "--dump" ∈ arguments
  catalog : options.catalog.toList = files arguments

/-- **The answer to arguments**: that of the leftmost argument that settles it, whatever is to its
right, and what they set if there is none. -/
inductive Decides : List String → Except UsageError Request → Prop
  | stopped {before : List String} {argument : String} {answer : Except UsageError Request}
      (leftmost : Unsettled before) (settles : Settles before argument answer)
      (after : List String) : Decides (before ++ argument :: after) answer
  | accepted {arguments : List String} {options : Options} (unsettled : Unsettled arguments)
      (set : options.AreSetBy arguments) : Decides arguments (.ok (.run options))

/-- The arguments are put in another order, or a flag that is among them is given once more. -/
inductive Rearranges : List String → List String → Prop
  | permute {arguments others : List String} (h : arguments.Perm others) :
      Rearranges arguments others
  | repeatFlag {before after : List String} {flag : String} (hflag : IsFlag flag)
      (given : flag ∈ before ++ after) : Rearranges (before ++ after) (before ++ flag :: after)

variable {arguments before after : List String} {argument : String}
  {answer : Except UsageError Request} {options : Options}

/-! ## Kinds of arguments -/

theorem isFlag_of_setsOption (h : SetsOption argument) : IsFlag argument := by
  rcases h with (rfl | rfl) | rfl <;> decide

theorem isFlag_of_asksForHelp (h : AsksForHelp argument) : IsFlag argument := by
  rcases h with rfl | rfl <;> decide

theorem not_asksForHelp_of_setsOption (h : SetsOption argument) : ¬AsksForHelp argument := by
  rcases h with (rfl | rfl) | rfl <;> decide

theorem ofString_dump : Argument.ofString "--dump" = .dump := by decide

theorem ofString_of_asksForHelp (h : AsksForHelp argument) :
    Argument.ofString argument = .help := by
  rcases h with rfl | rfl <;> decide

theorem ofString_of_unknown (hflag : IsFlag argument) (hknown : ¬SetsOption argument)
    (hhelp : ¬AsksForHelp argument) : Argument.ofString argument = .unknownFlag argument := by
  obtain ⟨hverbosity, hdump⟩ := not_or.mp hknown
  exact (if_neg hverbosity).trans ((if_neg hdump).trans ((if_neg hhelp).trans (if_pos hflag)))

/-! ## Arguments that settle nothing -/

theorem files_append (xs ys : List String) : files (xs ++ ys) = files xs ++ files ys :=
  List.filter_append ..

theorem files_singleton_of_isFlag (h : IsFlag argument) : files [argument] = [] := by
  simp [files, h]

theorem files_singleton_of_not_isFlag (h : ¬IsFlag argument) : files [argument] = [argument] := by
  simp [files, h]

/-- An argument settles nothing when it sets an option or names the first file. -/
theorem not_settles_iff (hbefore : (files before).length ≤ 1) :
    (∀ answer, ¬Settles before argument answer) ↔
      SetsOption argument ∨ (¬IsFlag argument ∧ files before = []) := by
  constructor
  · intro h
    by_cases hflag : IsFlag argument
    · by_contra hknown
      have hhelp : ¬AsksForHelp argument := fun hhelp => h _ (.help hhelp)
      exact h _ (.unknownFlag hflag (fun hset => hknown (.inl hset)) hhelp)
    · refine .inr ⟨hflag, ?_⟩
      match hfiles : files before with
      | [] => rfl
      | [path] => exact absurd (.secondCatalog hflag hfiles) (h _)
      -- a second file has settled the answer before
      | _ :: _ :: _ => simp [hfiles] at hbefore
  · rintro (hset | ⟨hfile, hnone⟩) answer hsettles
    · cases hsettles with
      | help hhelp => exact not_asksForHelp_of_setsOption hset hhelp
      | unknownFlag _ hknown _ => exact hknown hset
      | secondCatalog hfile _ => exact hfile (isFlag_of_setsOption hset)
    · cases hsettles with
      | help hhelp => exact hfile (isFlag_of_asksForHelp hhelp)
      | unknownFlag hflag _ _ => exact hfile hflag
      | secondCatalog _ hone => cases hnone.symm.trans hone

theorem unsettled_nil : Unsettled [] := by
  intro before argument after h
  cases before <;> cases h

/-- One more argument settles the answer or does not. -/
theorem unsettled_concat_iff :
    Unsettled (arguments ++ [argument]) ↔
      Unsettled arguments ∧ ∀ answer, ¬Settles arguments argument answer :=
  forall_place_concat_iff

/-- **None settles the answer** of arguments with known flags only and one file at most. -/
theorem unsettled_iff :
    Unsettled arguments ↔
      (∀ argument ∈ arguments, IsFlag argument → SetsOption argument) ∧
        (files arguments).length ≤ 1 := by
  -- whether an argument settles the answer depends on those before it, so the induction is from the
  -- end of the list
  induction arguments using List.reverseRecOn with
  | nil => exact ⟨fun _ => ⟨List.forall_mem_nil _, Nat.zero_le _⟩, fun _ => unsettled_nil⟩
  | append_singleton arguments last ih =>
    rw [unsettled_concat_iff, ih, files_append, List.length_append, List.forall_mem_append,
      List.forall_mem_singleton]
    by_cases hflag : IsFlag last
    · rw [files_singleton_of_isFlag hflag]
      constructor
      · rintro ⟨⟨hknown, hfiles⟩, hlast⟩
        rcases (not_settles_iff hfiles).mp hlast with hset | ⟨hfile, -⟩
        · exact ⟨⟨hknown, fun _ => hset⟩, hfiles⟩
        · exact absurd hflag hfile
      · rintro ⟨⟨hknown, hset⟩, hfiles⟩
        exact ⟨⟨hknown, hfiles⟩, (not_settles_iff hfiles).mpr (.inl (hset hflag))⟩
    · rw [files_singleton_of_not_isFlag hflag]
      constructor
      · rintro ⟨⟨hknown, hfiles⟩, hlast⟩
        rcases (not_settles_iff hfiles).mp hlast with hset | ⟨-, hnone⟩
        · exact absurd (isFlag_of_setsOption hset) hflag
        · exact ⟨⟨hknown, fun h => absurd h hflag⟩, by simp [hnone]⟩
      · rintro ⟨⟨hknown, -⟩, hfiles⟩
        have hnone : files arguments = [] := by simpa using hfiles
        refine ⟨⟨hknown, by simp [hnone]⟩, ?_⟩
        exact (not_settles_iff (by simp [hnone])).mpr (.inr ⟨hflag, hnone⟩)

/-! ## What arguments set -/

theorem Options.AreSetBy.unique {options' : Options} (h : options.AreSetBy arguments)
    (h' : options'.AreSetBy arguments) : options = options' := by
  have hverbose : options.verbose = options'.verbose :=
    Bool.eq_iff_iff.mpr (h.verbose.trans h'.verbose.symm)
  have hdump : options.dump = options'.dump := Bool.eq_iff_iff.mpr (h.dump.trans h'.dump.symm)
  have hcatalog : options.catalog = options'.catalog := by
    have := h.catalog.trans h'.catalog.symm
    cases hc : options.catalog <;> cases hc' : options'.catalog <;> simp_all
  cases options
  cases options'
  cases hverbose
  cases hdump
  cases hcatalog
  rfl

/-- What one more argument sets. -/
theorem Options.AreSetBy.concat {options' : Options} (h : options.AreSetBy before)
    (hverbose : options'.verbose = true ↔ options.verbose = true ∨ IsVerbosityFlag argument)
    (hdump : options'.dump = true ↔ options.dump = true ∨ argument = "--dump")
    (hcatalog : options'.catalog.toList = options.catalog.toList ++ files [argument]) :
    options'.AreSetBy (before ++ [argument]) where
  verbose := by
    rw [hverbose, h.verbose]
    simp [or_and_right, exists_or]
  dump := by
    rw [hdump, h.dump]
    simp [eq_comm]
  catalog := by rw [hcatalog, h.catalog, files_append]

/-- **Arguments that settle nothing** are handled by setting options. -/
theorem parseFrom_of_unsettled (h : Unsettled before) :
    ∃ options : Options, options.AreSetBy before ∧
      ∀ rest, parseFrom (before.map Argument.ofString ++ rest) {} = parseFrom rest options := by
  induction before using List.reverseRecOn with
  | nil => exact ⟨{}, ⟨by simp, by simp, rfl⟩, fun _ => rfl⟩
  | append_singleton before last ih =>
    obtain ⟨hbefore, hlast⟩ := unsettled_concat_iff.mp h
    obtain ⟨options, hset, hparse⟩ := ih hbefore
    have hstep (options' : Options)
        (hlast : ∀ rest, parseFrom (Argument.ofString last :: rest) options =
          parseFrom rest options') (rest : List Argument) :
        parseFrom ((before ++ [last]).map Argument.ofString ++ rest) {} =
          parseFrom rest options' := by
      rw [List.map_append, List.append_assoc, hparse]
      exact hlast rest
    -- what settles nothing is a flag that sets an option or the first file
    rcases (not_settles_iff (unsettled_iff.mp hbefore).2).mp hlast with
      (hverbosity | rfl) | ⟨hfile, hnone⟩
    · have hfiles := files_singleton_of_isFlag (isFlag_of_setsOption (.inl hverbosity))
      have hdump : last ≠ "--dump" := by
        rintro rfl
        exact absurd hverbosity (by decide)
      refine ⟨{ options with verbose := true }, hset.concat ?_ ?_ ?_, hstep _ fun rest => ?_⟩
      · simp [hverbosity]
      · simp [hdump]
      · simp [hfiles]
      · rw [ofString_of_isVerbosityFlag hverbosity, parseFrom]
    · refine ⟨{ options with dump := true }, hset.concat ?_ ?_ ?_, hstep _ fun rest => ?_⟩
      · simp [show ¬IsVerbosityFlag "--dump" by decide]
      · simp
      · simp [show files ["--dump"] = [] by decide]
      · rw [ofString_dump, parseFrom]
    · -- no file has been named so far
      have hcatalog : options.catalog = none := by
        rw [← Option.toList_eq_nil_iff, hset.catalog, hnone]
      have hverbosity : ¬IsVerbosityFlag last := fun h => hfile (isFlag_of_setsOption (.inl h))
      have hdump : last ≠ "--dump" := fun h => hfile (isFlag_of_setsOption (.inr h))
      refine ⟨{ options with catalog := some last }, hset.concat ?_ ?_ ?_, hstep _ fun rest => ?_⟩
      · simp [hverbosity]
      · simp [hdump]
      · simp [hcatalog, files_singleton_of_not_isFlag hfile]
      · rw [ofString_of_noDash hfile, parseFrom, hcatalog]

/-! ## The leftmost argument that settles the answer -/

/-- **Some answer is decided**: an argument settles it, of which one is the leftmost, or none. -/
theorem exists_decides (arguments : List String) : ∃ answer, Decides arguments answer := by
  have hsplit : Unsettled arguments ∨ ∃ before argument after answer,
      arguments = before ++ argument :: after ∧ Unsettled before ∧
        Settles before argument answer := by
    induction arguments using List.reverseRecOn with
    | nil => exact .inl unsettled_nil
    | append_singleton arguments last ih =>
      rcases ih with hnone | ⟨before, argument, after, answer, rfl, hbefore, hsettles⟩
      · by_cases hlast : ∀ answer, ¬Settles arguments last answer
        · exact .inl (unsettled_concat_iff.mpr ⟨hnone, hlast⟩)
        · obtain ⟨answer, hsettles⟩ := not_forall_not.mp hlast
          exact .inr ⟨arguments, last, [], answer, rfl, hnone, hsettles⟩
      · exact .inr ⟨before, argument, after ++ [last], answer, by simp, hbefore, hsettles⟩
  rcases hsplit with hnone | ⟨before, argument, after, answer, rfl, hbefore, hsettles⟩
  · obtain ⟨options, hset, -⟩ := parseFrom_of_unsettled hnone
    exact ⟨_, .accepted hnone hset⟩
  · exact ⟨answer, .stopped hbefore hsettles after⟩

/-- **The decided answer** is the one that is given. -/
theorem parseArguments_of_decides (h : Decides arguments answer) :
    parseArguments arguments = answer := by
  cases h with
  | @stopped before argument _ hbefore hsettles after =>
    obtain ⟨options, hset, hparse⟩ := parseFrom_of_unsettled hbefore
    rw [parseArguments, List.map_append, List.map_cons, hparse]
    cases hsettles with
    | help hhelp => rw [ofString_of_asksForHelp hhelp, parseFrom]
    | unknownFlag hflag hknown hhelp => rw [ofString_of_unknown hflag hknown hhelp, parseFrom]
    | @secondCatalog hfile path hone =>
      -- the one file before was taken for the catalog
      have hcatalog : options.catalog = some path := by
        rw [← Option.toList_eq_singleton_iff, hset.catalog, hone]
      rw [ofString_of_noDash hfile, parseFrom, hcatalog]
  | @accepted _ options hnone hset =>
    obtain ⟨options', hset', hparse⟩ := parseFrom_of_unsettled hnone
    have hall := hparse []
    rw [List.append_nil] at hall
    rw [parseArguments, hall, hset.unique hset']
    rfl

/-- **What arguments ask for** is decided by the leftmost that settles it. -/
theorem parseArguments_eq_iff :
    parseArguments arguments = answer ↔ Decides arguments answer := by
  refine ⟨?_, parseArguments_of_decides⟩
  rintro rfl
  obtain ⟨answer, h⟩ := exists_decides arguments
  rwa [parseArguments_of_decides h]

/-- Arguments that are accepted settle nothing. -/
theorem unsettled_of_accepted (h : parseArguments arguments = .ok (.run options)) :
    Unsettled arguments ∧ options.AreSetBy arguments := by
  have hdecides := parseArguments_eq_iff.mp h
  generalize hanswer : Except.ok (Request.run options) = answer at hdecides
  cases hdecides with
  | stopped _ hsettles _ => cases hsettles <;> cases hanswer
  | accepted hnone hset =>
    cases hanswer
    exact ⟨hnone, hset⟩

/-! ## Arguments in another order -/

/-- **Rearranging** changes neither which arguments are given nor, when none settles the answer, the
file. -/
theorem Rearranges.same {others : List String} (h : Rearranges arguments others)
    (hnone : Unsettled arguments) :
    (∀ argument, argument ∈ others ↔ argument ∈ arguments) ∧ files others = files arguments := by
  cases h with
  | permute h =>
    refine ⟨fun argument => h.mem_iff.symm, ?_⟩
    have hperm : (files arguments).Perm (files others) := h.filter _
    match hfiles : files arguments with
    | [] => exact List.perm_nil.mp (hfiles ▸ hperm).symm
    | [path] => exact List.perm_singleton.mp (hfiles ▸ hperm).symm
    | _ :: _ :: _ => simpa [hfiles] using (unsettled_iff.mp hnone).2
  | @repeatFlag before after flag hflag given =>
    refine ⟨fun argument => ?_, ?_⟩
    · rw [List.mem_append, List.mem_cons, ← or_left_comm, ← List.mem_append]
      exact or_iff_right_of_imp fun h => h ▸ given
    · rw [files_append, ← List.singleton_append, files_append, files_singleton_of_isFlag hflag,
        List.nil_append, ← files_append]

theorem Rearranges.accepted {others : List String} (h : Rearranges arguments others)
    (hparse : parseArguments arguments = .ok (.run options)) :
    parseArguments others = .ok (.run options) := by
  obtain ⟨hnone, hset⟩ := unsettled_of_accepted hparse
  obtain ⟨hmem, hfiles⟩ := h.same hnone
  obtain ⟨hknown, hone⟩ := unsettled_iff.mp hnone
  refine parseArguments_of_decides
    (.accepted (unsettled_iff.mpr ⟨?_, by rwa [hfiles]⟩) ⟨?_, ?_, ?_⟩)
  · exact fun argument hargument => hknown argument ((hmem argument).mp hargument)
  · rw [hset.verbose]
    exact exists_congr fun argument => and_congr_left' (hmem argument).symm
  · rw [hset.dump, hmem]
  · rw [hset.catalog, hfiles]

/-- **The leftmost argument decides.** Arguments are answered as the leftmost of them settles that
asks for help, is a flag that is not known or is the second that names a file, whatever is to its
right. If there is none such, they are accepted, and the options say which flags are among them and
which file. A run that is asked for help writes how to use the program and ends with exit code 0;
one that refuses its arguments says why; neither reads a file. Arguments that are accepted are
accepted in every order, and with every flag repeated, with the same options. -/
theorem parseArguments_decided (arguments : List String) :
    (∀ answer, parseArguments arguments = answer ↔ Decides arguments answer) ∧
    (∀ (m : Type → Type) [Monad m] [LawfulMonad m] (readBytes : String → m (Option ByteArray)),
      (Decides arguments (.ok .help) →
        session readBytes arguments = pure ⟨0, usage ++ "
", none⟩) ∧
      ∀ e, Decides arguments (.error e) →
        session readBytes arguments = pure ⟨1, "", some (.usage e)⟩) ∧
    ∀ options others, parseArguments arguments = .ok (.run options) →
      Relation.ReflTransGen Rearranges arguments others →
      parseArguments others = .ok (.run options) := by
  refine ⟨fun _ => parseArguments_eq_iff, fun m _ _ readBytes => ⟨fun h => ?_, fun e h => ?_⟩,
    fun options others hparse hsteps => ?_⟩
  · rw [session, run, parseArguments_of_decides h]
    exact pure_bind ..
  · rw [session, run, parseArguments_of_decides h]
    exact pure_bind ..
  · induction hsteps with
    | refl => exact hparse
    | tail _ hstep ih => exact hstep.accepted ih

/-- The flag that is not known stands to the left of the request for help. -/
example : parseArguments ["-v", "-x", "--help"] = .error (.unknownFlag "-x") := by decide

end RenderPlan.Studio
