import Fixtures.Locator
import Fixtures.Proofs.Tree.Walk

/-!
# Outcomes of a location

A location looks up one path, and its outcome tells what the path was found to be. A directory is
located. What leads to none is one of two failures of the locator, by whether the variable decided
or the fallback. But a look-up can also end without a verdict: the file system refuses a path that
is too long, or a name that is too long on the way. Such a refusal is handed on as it is, also by
the corpora, and nothing else is.
-/

namespace Fixtures

namespace Surroundings

variable {s : Surroundings} {path : Path}

/-- A path leads to a directory from where the fixtures stand. -/
def FindsDirectory (s : Surroundings) (path : Path) : Prop :=
  '\x00' ∉ path.toText.toList ∧
    ∃ id, s.tree.lookUp s.workingDirectory path.toText = .ok id ∧ (s.tree.directory? id).isSome

/-- A look-up is refused for the length of the path or of a name on the way. -/
def FindsTooLong (s : Surroundings) (path : Path) : Prop :=
  '\x00' ∉ path.toText.toList ∧
    s.tree.lookUp s.workingDirectory path.toText = .error .nameTooLong

/-- A path that leads to a directory has been looked up to the end. -/
theorem not_findsTooLong_of_findsDirectory (h : s.FindsDirectory path) :
    ¬ s.FindsTooLong path := by
  obtain ⟨_, id, hid, _⟩ := h
  rintro ⟨_, hlong⟩
  rw [hid] at hlong
  cases hlong

/-- The verdict on a path is that it leads to a directory exactly when it does. -/
theorem leadsToDirectory_eq_true_iff :
    s.leadsToDirectory path = .ok true ↔ s.FindsDirectory path := by
  by_cases hnul : '\x00' ∈ path.toText.toList
  · simp [leadsToDirectory, Tree.leadsToDirectory, FindsDirectory, hnul]
  · rw [leadsToDirectory, Tree.leadsToDirectory_eq_true_iff hnul, FindsDirectory]
    exact (and_iff_right hnul).symm

/-- There is no verdict on a path exactly when its look-up is refused for a length. -/
theorem leadsToDirectory_eq_error_iff {fault : Tree.Fault} :
    s.leadsToDirectory path = .error fault ↔ fault = .nameTooLong ∧ s.FindsTooLong path := by
  by_cases hnul : '\x00' ∈ path.toText.toList
  · simp [leadsToDirectory, Tree.leadsToDirectory, FindsTooLong, hnul]
  · unfold leadsToDirectory Tree.leadsToDirectory FindsTooLong
    rw [if_neg (by simpa using hnul)]
    cases hlookUp : s.tree.lookUp s.workingDirectory path.toText with
    | ok id => simp
    | error refusal =>
      -- Of the reasons to stop a walk all but one are verdicts.
      have hstops : refusal.StopsWalk := Tree.fault_of_lookUp hlookUp
      cases refusal with
      | noEntry => simp
      | notDirectory => simp
      | tooManyLinks => simp
      | nameTooLong => simp [hnul, eq_comm]
      | _ => exact hstops.elim

/-- The verdict on a path is that it leads to no directory in all other cases. -/
theorem leadsToDirectory_eq_false_iff :
    s.leadsToDirectory path = .ok false ↔ ¬ s.FindsDirectory path ∧ ¬ s.FindsTooLong path := by
  have htrue : s.leadsToDirectory path = .ok true ↔ s.FindsDirectory path :=
    leadsToDirectory_eq_true_iff
  cases hverdict : s.leadsToDirectory path with
  | error fault =>
    have hlong := leadsToDirectory_eq_error_iff.mp hverdict
    simp [hlong.2]
  | ok leads =>
    have hshort : ¬ s.FindsTooLong path := by
      intro hlong
      have herror := leadsToDirectory_eq_error_iff.mpr ⟨rfl, hlong⟩
      rw [hverdict] at herror
      cases herror
    rw [hverdict] at htrue
    cases leads <;> simp_all

/-- Few bytes, short names, and short links in the tree make every look-up end in a verdict. -/
theorem not_findsTooLong (hlinks : s.tree.HasShortLinks)
    (hlength : path.toText.utf8ByteSize ≤ Tree.pathLimit)
    (hparts : ∀ part ∈ path.parts, part.utf8ByteSize ≤ Tree.nameLimit) :
    ¬ s.FindsTooLong path :=
  fun hlong => Tree.lookUp_ne_nameTooLong hlinks s.workingDirectory hlength hparts hlong.2

/-- An outcome that tells what a path was found to be. -/
structure Tells {ε α : Type} (s : Surroundings) (path : Path) (outcome : Except ε α) (success : α)
    (missing refused : ε) : Prop where
  /-- It is a success exactly where the path leads to a directory. -/
  ok_iff : ∀ answer, outcome = .ok answer ↔ answer = success ∧ s.FindsDirectory path
  /-- It is one failure exactly where the path leads to none, and another one exactly where the
  look-up is refused for a length. -/
  error_iff : ∀ failure, outcome = .error failure ↔
    (failure = missing ∧ ¬ s.FindsDirectory path ∧ ¬ s.FindsTooLong path) ∨
      (failure = refused ∧ s.FindsTooLong path)

/-- An answer that is made from a success tells the same. -/
theorem Tells.map {ε α β : Type} {outcome : Except ε α} {success : α} {missing refused : ε}
    (h : s.Tells path outcome success missing refused) (f : α → β) :
    s.Tells path (outcome.map f) (f success) missing refused := by
  constructor
  · intro answer
    have hok := h.ok_iff
    cases outcome with
    | error failure =>
      have hlost : ¬ s.FindsDirectory path := fun hfinds => by
        cases (hok success).mpr ⟨rfl, hfinds⟩
      simp [Except.map, hlost]
    | ok found =>
      obtain ⟨rfl, hfinds⟩ := (hok found).mp rfl
      simp [Except.map, hfinds, eq_comm]
  · intro failure
    rw [← h.error_iff]
    cases outcome <;> simp [Except.map]

/-- Failures that are made from failures tell the same. -/
theorem Tells.mapError {ε ε' α : Type} {outcome : Except ε α} {success : α} {missing refused : ε}
    (h : s.Tells path outcome success missing refused) (f : ε → ε') :
    s.Tells path (outcome.mapError f) success (f missing) (f refused) := by
  constructor
  · intro answer
    rw [← h.ok_iff]
    cases outcome <;> simp [Except.mapError]
  · intro failure
    have herror := h.error_iff
    cases outcome with
    | ok found =>
      obtain ⟨_, hfinds⟩ := (h.ok_iff found).mp rfl
      have hshort := not_findsTooLong_of_findsDirectory hfinds
      simp [Except.mapError, hfinds, hshort]
    | error cause =>
      rcases (herror cause).mp rfl with ⟨rfl, hlost, hshort⟩ | ⟨rfl, hlong⟩
      · simp [Except.mapError, hlost, hshort, eq_comm]
      · simp [Except.mapError, hlong, eq_comm]

end Surroundings

namespace Locator

variable {s : Surroundings}

/-- The path that a location looks up: what the variable is set to or, while that is unset or
blank, the fallback taken from its base. -/
def candidate (s : Surroundings) (variableName : String) (fallback : Path) (base : Option Path) :
    Path :=
  if configured s variableName = "" then (base.getD s.projectRoot).join fallback
  else Path.ofText (configured s variableName)

/-- What decides about a location: the fallback while the variable is unset or blank. -/
def decider (s : Surroundings) (variableName : String) : Source :=
  if configured s variableName = "" then .fallback else .override

/-- The failure of the locator for a path that leads to no directory. -/
def missing (variableName : String) (path : Path) : Source → Failure
  | .override => .configuredNotFound variableName path
  | .fallback => .noFallback variableName path

/-- A location confirms its candidate. -/
theorem resolve_eq_confirm (s : Surroundings) (variableName : String) (fallback : Path)
    (base : Option Path) :
    resolve s variableName fallback base =
      confirm s ⟨candidate s variableName fallback base, decider s variableName, variableName⟩
        (missing variableName (candidate s variableName fallback base)
          (decider s variableName)) := by
  unfold candidate decider
  by_cases h : configured s variableName = ""
  · rw [resolve_of_blank h, if_pos h, if_pos h]
    rfl
  · rw [resolve_of_configured h, if_neg h, if_neg h]
    rfl

/-- Confirming a directory tells what its path was found to be. -/
theorem confirm_tells (s : Surroundings) (directory : DataDirectory) (missing : Failure) :
    s.Tells directory.path (confirm s directory missing) directory missing
      (.system .nameTooLong directory.path) := by
  constructor
  · intro found
    rw [confirm_eq_ok_iff, Surroundings.leadsToDirectory_eq_true_iff]
  · intro failure
    unfold confirm
    cases hverdict : s.leadsToDirectory directory.path with
    | error fault =>
      obtain ⟨rfl, hlong⟩ := Surroundings.leadsToDirectory_eq_error_iff.mp hverdict
      simp [hlong, eq_comm]
    | ok leads =>
      cases leads with
      | true =>
        have hfinds := Surroundings.leadsToDirectory_eq_true_iff.mp hverdict
        have hshort := Surroundings.not_findsTooLong_of_findsDirectory hfinds
        simp [hfinds, hshort]
      | false =>
        obtain ⟨hlost, hshort⟩ := Surroundings.leadsToDirectory_eq_false_iff.mp hverdict
        simp [hlost, hshort, eq_comm]

/-- A location tells what its candidate was found to be. -/
theorem resolve_tells (s : Surroundings) (variableName : String) (fallback : Path)
    (base : Option Path) :
    s.Tells (candidate s variableName fallback base) (resolve s variableName fallback base)
      ⟨candidate s variableName fallback base, decider s variableName, variableName⟩
      (missing variableName (candidate s variableName fallback base) (decider s variableName))
      (.system .nameTooLong (candidate s variableName fallback base)) := by
  rw [resolve_eq_confirm]
  generalize candidate s variableName fallback base = path
  exact confirm_tells s ⟨path, decider s variableName, variableName⟩ _

/-- What a failure to locate the directory of a corpus becomes: the locator's own ones are named as
causes, and a refusal of the file system is handed on. -/
def Failure.forCorpus (corpusName : String) : Failure → CorpusFailure
  | .system fault path => .system fault path
  | cause => .unavailable corpusName cause

/-- The locator's own failures are causes. -/
theorem forCorpus_missing (corpusName variableName : String) (path : Path) (source : Source) :
    (missing variableName path source).forCorpus corpusName =
      .unavailable corpusName (missing variableName path source) := by
  cases source <;> rfl

/-- A corpus is located by its variable and its usual place. -/
theorem corpus_eq (s : Surroundings) (c : Settings.Corpus) :
    corpus s c = (resolve s c.variableName (Path.ofText c.usualPlace) none).mapError
      (Failure.forCorpus c.name) := by
  unfold corpus
  cases resolve s c.variableName (Path.ofText c.usualPlace) none with
  | ok directory => rfl
  | error failure => cases failure <;> rfl

/-- The path that a corpus is looked for at. -/
def corpusCandidate (s : Surroundings) (c : Settings.Corpus) : Path :=
  candidate s c.variableName (Path.ofText c.usualPlace) none

/-- The path of a corpus tells what its candidate was found to be. -/
theorem corpus_tells (s : Surroundings) (c : Settings.Corpus) :
    s.Tells (corpusCandidate s c) ((corpus s c).map fun directory => directory.path.toText)
      (corpusCandidate s c).toText
      (.unavailable c.name
        (missing c.variableName (corpusCandidate s c) (decider s c.variableName)))
      (.system .nameTooLong (corpusCandidate s c)) := by
  have htells := resolve_tells s c.variableName (Path.ofText c.usualPlace) none
  have hpath := (htells.mapError (Failure.forCorpus c.name)).map
    fun directory => directory.path.toText
  rw [forCorpus_missing, ← corpus_eq] at hpath
  unfold corpusCandidate
  generalize candidate s c.variableName (Path.ofText c.usualPlace) none = path at hpath ⊢
  exact hpath

/-- The two corpora tell what their candidates were found to be. -/
theorem corpora_tell (s : Surroundings) {c : Settings.Corpus} {answer : Except CorpusFailure String}
    (hmem : (c, answer) ∈ [(Settings.arrowCorpus, arrowData s),
      (Settings.parquetCorpus, parquetData s)]) :
    s.Tells (corpusCandidate s c) answer (corpusCandidate s c).toText
      (.unavailable c.name
        (missing c.variableName (corpusCandidate s c) (decider s c.variableName)))
      (.system .nameTooLong (corpusCandidate s c)) := by
  have hanswer : answer = (corpus s c).map fun directory => directory.path.toText := by
    simp only [List.mem_cons, List.not_mem_nil, or_false, Prod.mk.injEq] at hmem
    rcases hmem with ⟨hc, hanswer⟩ | ⟨hc, hanswer⟩
    · rw [hc, hanswer, arrowData]
    · rw [hc, hanswer, parquetData]
  rw [hanswer]
  exact corpus_tells s c

/-- **What a location comes to.** A location succeeds exactly where its candidate leads to a
directory, and answers with that. It fails with the locator's own failure, by what decided, exactly
where the candidate leads to no directory and its look-up is not refused for a length; where it is
refused, that refusal is the failure. The paths of the two corpora are answered, and refused, in the
same three cases, and the locator's own failures are their causes. A candidate of few bytes with
short names is never refused in a tree whose links are short. -/
theorem resolve_outcome (s : Surroundings) (variableName : String) (fallback : Path)
    (base : Option Path) :
    let path := candidate s variableName fallback base
    s.Tells path (resolve s variableName fallback base)
        ⟨path, decider s variableName, variableName⟩
        (missing variableName path (decider s variableName)) (.system .nameTooLong path) ∧
      (∀ c answer, (c, answer) ∈ [(Settings.arrowCorpus, arrowData s),
          (Settings.parquetCorpus, parquetData s)] →
        s.Tells (corpusCandidate s c) answer (corpusCandidate s c).toText
          (.unavailable c.name
            (missing c.variableName (corpusCandidate s c) (decider s c.variableName)))
          (.system .nameTooLong (corpusCandidate s c))) ∧
      (s.tree.HasShortLinks → path.toText.utf8ByteSize ≤ Tree.pathLimit →
        (∀ part ∈ path.parts, part.utf8ByteSize ≤ Tree.nameLimit) → ¬ s.FindsTooLong path) := by
  intro path
  exact ⟨resolve_tells s variableName fallback base, fun _ _ => corpora_tell s,
    Surroundings.not_findsTooLong⟩

/-- A variable that names a file, a blank one with a fallback that is not there, and a corpus that
is there: no look-up is refused. -/
theorem resolve_outcome_at_file :
    let tree : Tree := ⟨[.directory ⟨0, ⟨[("file", 1), ("data", 2)]⟩, false⟩, .file .empty,
      .directory ⟨0, {}, false⟩]⟩
    let s : Surroundings := ⟨tree, 0,
      ⟨[("FILE", "file"), ("BLANK", " "), ("ARROW_TEST_DATA", "data/")]⟩, Path.ofText "/gone"⟩
    resolve s "FILE" (Path.ofText "/data") none =
        .error (.configuredNotFound "FILE" (Path.ofText "file")) ∧
      resolve s "BLANK" (Path.ofText "data") none =
        .error (.noFallback "BLANK" (Path.ofText "/gone/data")) ∧
      arrowData s = .ok "data" := by
  intro tree s
  have hlinks : tree.HasShortLinks := by
    intro id target htarget
    have hnone : tree.target? id = none := by
      match id with
      | 0 => rfl
      | 1 => rfl
      | 2 => rfl
      | _ + 3 => rfl
    rw [hnone] at htarget
    cases htarget
  have hcandidate : candidate s "FILE" (Path.ofText "/data") none = Path.ofText "file" := by
    decide
  have hcandidate' : candidate s "BLANK" (Path.ofText "data") none = Path.ofText "/gone/data" := by
    decide
  have husual : corpusCandidate s Settings.arrowCorpus = Path.ofText "data" := by decide
  have hdecider : decider s "FILE" = .override := by decide
  have hdecider' : decider s "BLANK" = .fallback := by decide
  obtain ⟨hfile, hcorpora, hshort⟩ := resolve_outcome s "FILE" (Path.ofText "/data") none
  obtain ⟨hblank, _, hshort'⟩ := resolve_outcome s "BLANK" (Path.ofText "data") none
  have harrow := hcorpora Settings.arrowCorpus (arrowData s) List.mem_cons_self
  rw [hcandidate, hdecider] at hfile
  rw [hcandidate', hdecider'] at hblank
  rw [hcandidate] at hshort
  rw [hcandidate'] at hshort'
  rw [husual] at harrow
  refine ⟨?_, ?_, ?_⟩
  · have hlost : ¬ s.FindsDirectory (Path.ofText "file") := by
      rintro ⟨_, id, hid, hdirectory⟩
      have hlookUp : tree.lookUp 0 (Path.ofText "file").toText = .ok 1 := by decide +kernel
      cases hlookUp.symm.trans hid
      cases hdirectory
    exact (hfile.error_iff _).mpr (Or.inl ⟨rfl, hlost, hshort hlinks (by decide) (by decide)⟩)
  · have hlost : ¬ s.FindsDirectory (Path.ofText "/gone/data") := by
      rintro ⟨_, id, hid, _⟩
      have hlookUp : tree.lookUp 0 (Path.ofText "/gone/data").toText = .error .noEntry := by
        decide +kernel
      cases hlookUp.symm.trans hid
    exact (hblank.error_iff _).mpr (Or.inl ⟨rfl, hlost, hshort' hlinks (by decide) (by decide)⟩)
  · have hfinds : s.FindsDirectory (Path.ofText "data") := by
      refine ⟨by decide, 2, ?_, rfl⟩
      show tree.lookUp 0 (Path.ofText "data").toText = .ok 2
      decide +kernel
    have htext : (Path.ofText "data").toText = "data" := by decide
    exact (harrow.ok_iff _).mpr ⟨htext.symm, hfinds⟩

/-- A letter takes one byte. -/
private theorem utf8Len_replicate (count : Nat) :
    String.utf8Len (List.replicate count 'a') = count := by
  induction count with
  | zero => rfl
  | succ count ih =>
    rw [List.replicate_succ, String.utf8Len_cons, ih]
    rfl

/-- A variable with a name of 256 letters leads to no directory, and yet neither the location nor
the corpus fails with a failure of the locator. -/
theorem resolve_of_long_name :
    let name := String.ofList (List.replicate 256 'a')
    let s : Surroundings :=
      ⟨Tree.empty, 0, ⟨[("ARROW_TEST_DATA", name)]⟩, Path.ofText "/project"⟩
    let outcome := resolve s "ARROW_TEST_DATA" (Path.ofText "/") none
    configured s "ARROW_TEST_DATA" = name ∧ ¬ s.FindsDirectory (Path.ofText name) ∧
      outcome = .error (.system .nameTooLong (Path.ofText name)) ∧
      outcome ≠ .error (.configuredNotFound "ARROW_TEST_DATA" (Path.ofText name)) ∧
      ∀ cause, arrowData s ≠ .error (.unavailable "arrow" cause) := by
  intro name s outcome
  have hletters : ∀ c ∈ name.toList, c = 'a' := by
    intro c hc
    rw [String.toList_ofList] at hc
    exact List.eq_of_mem_replicate hc
  have hsize : name.utf8ByteSize = 256 := by
    rw [String.utf8ByteSize_ofList]
    exact utf8Len_replicate 256
  have hpart : Path.IsPart name := by
    refine ⟨?_, ?_, ?_⟩
    · intro hempty
      rw [hempty] at hsize
      exact absurd hsize (by decide)
    · intro hdot
      rw [hdot] at hsize
      exact absurd hsize (by decide)
    · intro hslash
      exact absurd (hletters _ hslash) (by decide)
  have hvalue : s.valueOf? "ARROW_TEST_DATA" = some name := rfl
  have hconfigured : configured s "ARROW_TEST_DATA" = name := by
    rw [configured, hvalue]
    apply Text.trim_of_not_blank
    intro c hc
    rw [hletters c hc]
    decide
  have hlong : s.FindsTooLong (Path.ofText name) := by
    rw [Surroundings.FindsTooLong, Path.toText_ofText_of_isPart hpart]
    constructor
    · intro hnul
      exact absurd (hletters _ hnul) (by decide)
    · exact Tree.lookUp_of_long_name rfl rfl hpart (by rw [hsize]; decide) (by rw [hsize]; decide)
  have hlost : ¬ s.FindsDirectory (Path.ofText name) := fun hfinds =>
    Surroundings.not_findsTooLong_of_findsDirectory hfinds hlong
  have hcandidate (fallback : Path) :
      candidate s "ARROW_TEST_DATA" fallback none = Path.ofText name := by
    rw [candidate, hconfigured, if_neg hpart.1]
  have hresolve : outcome = .error (.system .nameTooLong (Path.ofText name)) := by
    have htells := resolve_tells s "ARROW_TEST_DATA" (Path.ofText "/") none
    rw [hcandidate] at htells
    exact (htells.error_iff _).mpr (Or.inr ⟨rfl, hlong⟩)
  have hcorpus : arrowData s = .error (.system .nameTooLong (Path.ofText name)) := by
    have htells := corpus_tells s Settings.arrowCorpus
    rw [show corpusCandidate s Settings.arrowCorpus = Path.ofText name from hcandidate _] at htells
    exact (htells.error_iff _).mpr (Or.inr ⟨rfl, hlong⟩)
  refine ⟨hconfigured, hlost, hresolve, ?_, ?_⟩
  · rw [hresolve]
    rintro ⟨⟩
  · rw [hcorpus]
    rintro cause ⟨⟩

end Locator

end Fixtures
