import Fixtures.Proofs.Producer.Feeding

/-!
# Which arguments make a producer

A producer is made of a limit and a claim that are counts, and of something that yields at least one
item. Anything else is refused for the first thing that is wrong: the limit is looked at first, then
the claim, then whether the items can be gone through and whether there are any. What is refused
changes no producer. The numbers that a producer has are counts, so copies are never refused for
them.
-/

namespace Fixtures

/-! ## Counts -/

namespace Argument

/-- The argument is a count: an integer that is not negative, or an object that yields one. A truth
value that is yielded counts as an integer. -/
inductive IsCount : Argument → Nat → Prop where
  /-- An integer. -/
  | plain (n : Nat) : IsCount (.plain (.int n)) n
  /-- An object that yields an integer. -/
  | indexed (n : Nat) : IsCount (.indexed (.int n)) n
  /-- An object that yields a truth value. -/
  | indexedTruth (b : Bool) : IsCount (.indexed (.bool b)) (if b then 1 else 0)

/-- The argument stands for an integer. Truth values do. -/
inductive IsIntegerLike : Argument → Prop where
  /-- An integer. -/
  | plain (n : Int) : IsIntegerLike (.plain (.int n))
  /-- A truth value. -/
  | plainTruth (b : Bool) : IsIntegerLike (.plain (.bool b))
  /-- An object that yields an integer. -/
  | indexed (n : Int) : IsIntegerLike (.indexed (.int n))
  /-- An object that yields a truth value. -/
  | indexedTruth (b : Bool) : IsIntegerLike (.indexed (.bool b))

/-- Why an argument is no count. -/
inductive IsRefused : Argument → Count.Refusal → Prop where
  /-- It is a truth value. -/
  | truthValue (b : Bool) : IsRefused (.plain (.bool b)) .truthValue
  /-- It is a negative integer. -/
  | negative {n : Int} (hnegative : n < 0) : IsRefused (.plain (.int n)) .negative
  /-- It yields a negative integer. -/
  | indexedNegative {n : Int} (hnegative : n < 0) : IsRefused (.indexed (.int n)) .negative
  /-- It does not stand for an integer. -/
  | notIntegerLike {argument : Argument} (h : ¬ argument.IsIntegerLike) :
    IsRefused argument .notIntegerLike

variable {argument : Argument} {n : Nat} {refusal : Count.Refusal}

/-- An argument is refused for not standing for an integer exactly if it does not. -/
theorem IsRefused.eq_notIntegerLike_iff (h : argument.IsRefused refusal) :
    refusal = .notIntegerLike ↔ ¬ argument.IsIntegerLike := by
  cases h with
  | truthValue b => exact iff_of_false (by decide) fun hnot => hnot (.plainTruth b)
  | @negative n _ => exact iff_of_false (by decide) fun hnot => hnot (.plain n)
  | @indexedNegative n _ => exact iff_of_false (by decide) fun hnot => hnot (.indexed n)
  | notIntegerLike h => exact iff_of_true rfl h

/-- A count is read. -/
theorem IsCount.ofArgument_eq (h : argument.IsCount n) : Count.ofArgument argument = .ok n := by
  have hofInt (n : Nat) : Count.ofInt n = .ok n := by
    rw [Count.ofInt, if_neg (by omega), Int.toNat_natCast]
  cases h with
  | plain n => exact hofInt n
  | indexed n => exact hofInt n
  | indexedTruth b => cases b <;> rfl

/-- What is no count is refused. -/
theorem IsRefused.ofArgument_eq (h : argument.IsRefused refusal) :
    Count.ofArgument argument = .error refusal := by
  cases h with
  | truthValue b => rfl
  | negative hnegative => exact if_pos hnegative
  | indexedNegative hnegative => exact if_pos hnegative
  | notIntegerLike h =>
    cases argument with
    | plain v =>
      cases v with
      | bool b => exact absurd (.plainTruth b) h
      | int n => exact absurd (.plain n) h
      | _ => rfl
    | indexed v =>
      cases v with
      | bool b => exact absurd (.indexedTruth b) h
      | int n => exact absurd (.indexed n) h
      | _ => rfl
    | noIndex => rfl

/-- An argument is a count or is refused. -/
theorem exists_isCount_or_isRefused (argument : Argument) :
    (∃ n, argument.IsCount n) ∨ ∃ refusal, argument.IsRefused refusal := by
  by_cases hlike : argument.IsIntegerLike
  · cases hlike with
    | plain n =>
      rcases Int.lt_or_le n 0 with hnegative | hcount
      · exact Or.inr ⟨_, .negative hnegative⟩
      · obtain ⟨n, rfl⟩ := Int.eq_ofNat_of_zero_le hcount
        exact Or.inl ⟨n, .plain n⟩
    | plainTruth b => exact Or.inr ⟨_, .truthValue b⟩
    | indexed n =>
      rcases Int.lt_or_le n 0 with hnegative | hcount
      · exact Or.inr ⟨_, .indexedNegative hnegative⟩
      · obtain ⟨n, rfl⟩ := Int.eq_ofNat_of_zero_le hcount
        exact Or.inl ⟨n, .indexed n⟩
    | indexedTruth b => exact Or.inl ⟨_, .indexedTruth b⟩
  · exact Or.inr ⟨_, .notIntegerLike hlike⟩

end Argument

namespace Producer

variable {session : Session} {source : Source} {limit claimed : Argument} {l c : Nat}
  {refusal : Count.Refusal}

section Counts

open Argument

/-- Two counts are read. -/
theorem counts_of_isCount (hlimit : limit.IsCount l) (hclaimed : claimed.IsCount c) :
    counts limit claimed = .ok (l, c) := by
  simp only [counts, hlimit.ofArgument_eq, hclaimed.ofArgument_eq]

/-- A limit that is no count is refused, whatever the claim is. -/
theorem counts_of_limit_refused (hlimit : limit.IsRefused refusal) (claimed : Argument) :
    counts limit claimed = .error (.badCount "limit" refusal) := by
  simp only [counts, hlimit.ofArgument_eq]

/-- A claim that is no count is refused behind a limit that is one. -/
theorem counts_of_claimed_refused (hlimit : limit.IsCount l)
    (hclaimed : claimed.IsRefused refusal) :
    counts limit claimed = .error (.badCount "claimed" refusal) := by
  simp only [counts, hlimit.ofArgument_eq, hclaimed.ofArgument_eq]

end Counts

/-! ## Items -/

/-- The source can be gone through, and yields these items in order: the characters of a text, the
numbers of bytes, the members of a list or a tuple, or what another producer has left. -/
inductive Source.Yields (session : Session) : Source → List Value → Prop where
  /-- The characters of a text, each as a text. -/
  | text (s : String) :
    Yields session (.value (.text s)) (s.toList.map fun char => .text (String.ofList [char]))
  /-- The bytes of a byte string, each as a number. -/
  | bytes (b : List UInt8) :
    Yields session (.value (.bytes b)) (b.map fun byte => .int byte.toNat)
  /-- The members of a list. -/
  | list (xs : List Value) : Yields session (.value (.list xs)) xs
  /-- The members of a tuple. -/
  | tuple (xs : List Value) : Yields session (.value (.tuple xs)) xs
  /-- What a producer of members has left. -/
  | producer {other : String} {p : Producer} {xs : List Value}
    (hfind : session.find? other = some p) (hmembers : p.items.members? = some xs)
    (hpos : 0 < xs.length) :
    Yields session (.producer other) (membersFrom xs hpos p.position p.remaining)

/-- A value yields its members. -/
theorem Source.yields_value_iff {v : Value} {xs : List Value} :
    (Source.value v).Yields session xs ↔ v.members? = some xs := by
  constructor
  · intro h
    cases h <;> rfl
  · intro h
    cases v with
    | text s => exact Option.some.inj h ▸ .text s
    | bytes b => exact Option.some.inj h ▸ .bytes b
    | list ys => exact Option.some.inj h ▸ .list ys
    | tuple ys => exact Option.some.inj h ▸ .tuple ys
    | _ => cases h

/-- The kind of a source that is no producer. -/
def Source.kindName? : Source → Option String
  | .value v => some v.kindName
  | .object kindName => some kindName
  | .producer _ => none

/-- The source is no producer, or one that goes through members and claims a length. -/
def Source.Stands (session : Session) : Source → Prop
  | .value _ => True
  | .object _ => True
  | .producer other => ∃ p xs, session.find? other = some p ∧ p.items.members? = some xs ∧
      0 < xs.length ∧ p.claimed < Container.lengthBound

/-- The machine has room for as many items as a producer claims that the items are gathered from. -/
def Source.HasRoom [Machine] (session : Session) : Source → Prop
  | .value _ => True
  | .object _ => True
  | .producer other => ∀ p, session.find? other = some p → Container.list.HasRoom p.claimed

/-- The arguments are valid: counts, and a source that yields at least one item. -/
structure Valid [Machine] (session : Session) (limit claimed : Argument) (source : Source)
    (l c : Nat) (xs : List Value) : Prop where
  /-- The limit is a count. -/
  isLimit : limit.IsCount l
  /-- The claim is a count. -/
  isClaimed : claimed.IsCount c
  /-- There is room for the items. -/
  hasRoom : source.HasRoom session
  /-- The source yields the items. -/
  yields : source.Yields session xs
  /-- There is an item. -/
  ne_nil : xs ≠ []

/-- The first thing that is wrong with the arguments. -/
inductive FirstFault [Machine] (session : Session) (limit claimed : Argument) (source : Source) :
    Failure → Prop where
  /-- The limit is no count. -/
  | limit {refusal : Count.Refusal} (hlimit : limit.IsRefused refusal) :
    FirstFault session limit claimed source (.badCount "limit" refusal)
  /-- The claim is no count. -/
  | claimed {l : Nat} {refusal : Count.Refusal} (hlimit : limit.IsCount l)
    (hclaimed : claimed.IsRefused refusal) :
    FirstFault session limit claimed source (.badCount "claimed" refusal)
  /-- The items cannot be gone through. -/
  | notIterable {l c : Nat} {kindName : String} (hlimit : limit.IsCount l)
    (hclaimed : claimed.IsCount c) (hkindName : source.kindName? = some kindName)
    (hnone : ∀ xs, ¬ source.Yields session xs) :
    FirstFault session limit claimed source (.notIterable kindName)
  /-- There is no room for what the source claims. -/
  | noRoom {l c : Nat} (hlimit : limit.IsCount l) (hclaimed : claimed.IsCount c)
    (hroom : ¬ source.HasRoom session) :
    FirstFault session limit claimed source (.memory .noRoom)
  /-- There are no items. -/
  | noItems {l c : Nat} (hlimit : limit.IsCount l) (hclaimed : claimed.IsCount c)
    (hroom : source.HasRoom session) (hyields : source.Yields session []) :
    FirstFault session limit claimed source .noItems

/-- A fault in the limit is that the limit is refused. -/
theorem FirstFault.limit_isRefused [Machine]
    (h : FirstFault session limit claimed source (.badCount "limit" refusal)) :
    limit.IsRefused refusal := by
  generalize hfault : Failure.badCount "limit" refusal = failure at h
  cases h with
  | limit hlimit =>
    injection hfault with _ hrefusal
    exact hrefusal ▸ hlimit
  | claimed =>
    injection hfault with hname
    exact absurd hname (by decide)
  | _ => cases hfault

/-- A fault in the claim is that the claim is refused. -/
theorem FirstFault.claimed_isRefused [Machine]
    (h : FirstFault session limit claimed source (.badCount "claimed" refusal)) :
    claimed.IsRefused refusal := by
  generalize hfault : Failure.badCount "claimed" refusal = failure at h
  cases h with
  | limit =>
    injection hfault with hname
    exact absurd hname (by decide)
  | claimed _ hclaimed =>
    injection hfault with _ hrefusal
    exact hrefusal ▸ hclaimed
  | _ => cases hfault

/-- Arguments are valid, or there is something wrong with them. -/
theorem valid_or_firstFault [Machine] (hsource : source.Stands session) (limit claimed : Argument) :
    (∃ l c xs, Valid session limit claimed source l c xs) ∨
      ∃ failure, FirstFault session limit claimed source failure := by
  rcases limit.exists_isCount_or_isRefused with ⟨l, hlimit⟩ | ⟨refusal, hlimit⟩
  · rcases claimed.exists_isCount_or_isRefused with ⟨c, hclaimed⟩ | ⟨refusal, hclaimed⟩
    · by_cases hroom : source.HasRoom session
      · by_cases hyields : ∃ xs, source.Yields session xs
        · obtain ⟨xs, hxs⟩ := hyields
          by_cases hnil : xs = []
          · exact Or.inr ⟨_, .noItems hlimit hclaimed hroom (hnil ▸ hxs)⟩
          · exact Or.inl ⟨l, c, xs, hlimit, hclaimed, hroom, hxs, hnil⟩
        · rw [not_exists] at hyields
          cases source with
          | value v => exact Or.inr ⟨_, .notIterable hlimit hclaimed rfl hyields⟩
          | object kindName => exact Or.inr ⟨_, .notIterable hlimit hclaimed rfl hyields⟩
          | producer other =>
            obtain ⟨p, xs, hfind, hmembers, hpos, _⟩ := hsource
            exact absurd (.producer hfind hmembers hpos) (hyields _)
      · exact Or.inr ⟨_, .noRoom hlimit hclaimed hroom⟩
    · exact Or.inr ⟨_, .claimed hlimit hclaimed⟩
  · exact Or.inr ⟨_, .limit hlimit⟩

namespace Session

section Creation

variable {kind : String} (hkind : kind.toList.contains '\x00' = false)

include hkind

/-- To make a producer of a value is to put a new producer of its members under the name. -/
theorem perform_create_value [Machine] (name : String) (limit claimed : Argument) (v : Value) :
    session.perform (.create name kind limit claimed (.value v)) =
      session.store name (ofValue kind limit claimed v) := by
  simp only [perform, create, hkind, Bool.false_eq_true, if_false]

/-- To make a producer of an object that cannot be gone through fails. -/
theorem perform_create_object [Machine] (name : String) (limit claimed : Argument)
    (kindName : String) :
    session.perform (.create name kind limit claimed (.object kindName)) =
      session.store name (ofObject limit claimed kindName) := by
  simp only [perform, create, hkind, Bool.false_eq_true, if_false]

/-- Arguments of which one is no count are refused before the source is looked at. -/
theorem perform_create_of_counts [Machine] {failure : Failure} (hsource : source.Stands session)
    (hcounts : counts limit claimed = .error failure) (name : String) :
    session.perform (.create name kind limit claimed source) = (session, .error failure) := by
  cases source with
  | value v =>
    rw [perform_create_value hkind]
    simp only [ofValue, hcounts, bind, Except.bind, store]
  | object kindName =>
    rw [perform_create_object hkind]
    simp only [ofObject, hcounts, bind, Except.bind, store]
  | producer other =>
    obtain ⟨p, _, hfind, _⟩ := hsource
    have hget : session.get other = .ok p := by simp only [get, hfind]
    simp only [perform, create, hkind, Bool.false_eq_true, if_false, createFrom, hget, hcounts]

/-- Counts and a source that yields items make what a start of these items makes. -/
theorem perform_create_of_yields [Machine] {xs : List Value} (hsource : source.Stands session)
    (hcounts : counts limit claimed = .ok (l, c)) (hroom : source.HasRoom session)
    (hyields : source.Yields session xs) (name : String) :
    ∃ before : Session, (xs = [] → before = session) ∧
      session.perform (.create name kind limit claimed source) =
        before.store name (start kind l c xs) := by
  cases source with
  | value v =>
    refine ⟨session, fun _ => rfl, ?_⟩
    rw [perform_create_value hkind]
    simp only [ofValue, hcounts, bind, Except.bind, Source.yields_value_iff.mp hyields]
  | object kindName => cases hyields
  | producer other =>
    obtain ⟨_, _, hfound, _, _, _⟩ := hsource
    cases hyields with
    | @producer other p ys hfind hmembers hpos =>
      refine ⟨session.insert other (p.advance p.remaining), fun hnil => ?_,
        perform_create_from hfind hmembers hpos (hroom p hfind) hcounts hkind⟩
      -- Nothing is left of the source, so draining it changes nothing.
      have hzero : p.remaining = 0 := by
        have hlength := congrArg List.length hnil
        simpa using hlength
      rw [hzero, advance_zero, Registry.insert_of_find? hfind]

/-- What is wrong is answered, and no producer changes. -/
theorem perform_create_of_firstFault [Machine] {failure : Failure} (hsource : source.Stands session)
    (h : FirstFault session limit claimed source failure) (name : String) :
    session.perform (.create name kind limit claimed source) = (session, .error failure) := by
  cases h with
  | limit hlimit =>
    exact perform_create_of_counts hkind hsource (counts_of_limit_refused hlimit claimed) name
  | claimed hlimit hclaimed =>
    exact perform_create_of_counts hkind hsource (counts_of_claimed_refused hlimit hclaimed) name
  | notIterable hlimit hclaimed hkindName hnone =>
    have hcounts := counts_of_isCount hlimit hclaimed
    cases source with
    | value v =>
      have hmembers : v.members? = none := by
        cases hmembers : v.members? with
        | none => rfl
        | some xs => exact absurd (Source.yields_value_iff.mpr hmembers) (hnone xs)
      cases hkindName
      rw [perform_create_value hkind]
      simp only [ofValue, hcounts, bind, Except.bind, hmembers, store]
    | object _ =>
      cases hkindName
      rw [perform_create_object hkind]
      simp only [ofObject, hcounts, bind, Except.bind, store]
    | producer other => cases hkindName
  | noRoom hlimit hclaimed hroom =>
    cases source with
    | value v => exact absurd trivial hroom
    | object kindName => exact absurd trivial hroom
    | producer other =>
      obtain ⟨p, _, hfind, _, _, hlength⟩ := hsource
      have hnoRoom : ¬ Container.list.HasRoom p.claimed := fun hroomy => hroom fun q hq =>
        Option.some.inj (hfind.symm.trans hq) ▸ hroomy
      have hcounts := counts_of_isCount hlimit hclaimed
      exact perform_create_of_no_room hfind hlength hnoRoom hcounts hkind
  | noItems hlimit hclaimed hroom hyields =>
    obtain ⟨before, hbefore, hperform⟩ := perform_create_of_yields hkind hsource
      (counts_of_isCount hlimit hclaimed) hroom hyields name
    rw [hperform, hbefore rfl]
    rfl

/-- Of valid arguments a producer is made. -/
theorem perform_create_of_valid [Machine] {xs : List Value} (hsource : source.Stands session)
    (h : Valid session limit claimed source l c xs) (name : String) :
    (session.perform (.create name kind limit claimed source)).2 = .ok .null ∧
      (session.perform (.create name kind limit claimed source)).1.find? name =
        some ⟨kind, l, c, 0, .list xs⟩ := by
  obtain ⟨before, _, hperform⟩ := perform_create_of_yields hkind hsource
    (counts_of_isCount h.isLimit h.isClaimed) h.hasRoom h.yields name
  rcases start_cases kind l c xs with ⟨hnil, _⟩ | ⟨_, hstart⟩
  · exact absurd hnil h.ne_nil
  · rw [hperform, hstart]
    exact ⟨rfl, Registry.find?_insert_self _ _ _⟩

/-- **Which arguments make a producer.** Whatever is passed as limit and claim, and whatever value,
other object or other producer the items are taken from: a producer is made exactly of valid
arguments, and it has the counts, the position zero and the items in order. Anything else answers
the first thing that is wrong and changes no producer. A count is refused for not standing for an
integer exactly if it does not. The counts that a producer has are accepted again and are the same,
so that a copy is never refused for them, and what has just been made can be copied. -/
theorem perform_create_eq_ok_iff [Machine] (hsource : source.Stands session) (name : String)
    (limit claimed : Argument) :
    let made := session.perform (.create name kind limit claimed source)
    (made.2 = .ok .null ↔ ∃ l c xs, Valid session limit claimed source l c xs) ∧
    (∀ l c xs, Valid session limit claimed source l c xs →
      made.1.find? name = some ⟨kind, l, c, 0, .list xs⟩ ∧
        (⟨kind, l, c, 0, .list xs⟩ : Producer).copy = .ok ⟨kind, l, c, 0, .list xs⟩) ∧
    (∀ failure, made.2 = .error failure ↔ FirstFault session limit claimed source failure) ∧
    (∀ failure, made.2 = .error failure → made.1 = session) ∧
    (∀ refusal, made.2 = .error (.badCount "limit" refusal) →
      (refusal = .notIntegerLike ↔ ¬ limit.IsIntegerLike)) ∧
    (∀ refusal, made.2 = .error (.badCount "claimed" refusal) →
      (refusal = .notIntegerLike ↔ ¬ claimed.IsIntegerLike)) ∧
    ∀ p : Producer,
      counts (.plain (.int p.limit)) (.plain (.int p.claimed)) = .ok (p.limit, p.claimed) ∧
        ∀ argumentName refusal, p.copy ≠ .error (.badCount argumentName refusal) := by
  intro made
  have hvalid {l c : Nat} {xs : List Value} (h : Valid session limit claimed source l c xs) :=
    perform_create_of_valid hkind hsource h name
  have hfault {failure : Failure} (h : FirstFault session limit claimed source failure) :
      made = (session, .error failure) := perform_create_of_firstFault hkind hsource h name
  have herror (failure : Failure) :
      made.2 = .error failure ↔ FirstFault session limit claimed source failure := by
    constructor
    · intro hfailed
      rcases valid_or_firstFault hsource limit claimed with ⟨l, c, xs, h⟩ | ⟨other, h⟩
      · have hmade := (hvalid h).1.symm.trans hfailed
        cases hmade
      · rw [hfault h] at hfailed
        cases hfailed
        exact h
    · intro h
      rw [hfault h]
  refine ⟨⟨?_, ?_⟩, fun l c xs h => ⟨(hvalid h).2, ?_⟩, herror, ?_, ?_, ?_,
    fun p => ⟨p.counts_self, ?_⟩⟩
  · intro hmade
    rcases valid_or_firstFault hsource limit claimed with h | ⟨failure, h⟩
    · exact h
    · rw [hfault h] at hmade
      cases hmade
  · rintro ⟨l, c, xs, h⟩
    exact (hvalid h).1
  · obtain ⟨x, ys, rfl⟩ := List.exists_cons_of_ne_nil h.ne_nil
    exact copy_eq _
  · intro failure hfailed
    rw [hfault ((herror failure).mp hfailed)]
  · intro refusal hfailed
    exact ((herror _).mp hfailed).limit_isRefused.eq_notIntegerLike_iff
  · intro refusal hfailed
    exact ((herror _).mp hfailed).claimed_isRefused.eq_notIntegerLike_iff
  · intro argumentName refusal hcopy
    rw [copy_eq] at hcopy
    split at hcopy <;> cases hcopy

end Creation

/-- Of three letters over and over a producer has five left. An object that yields a truth value is
a limit for a producer of these five. A truth value is none, and it is refused before the claim and
the items are looked at. -/
theorem perform_create_eq_ok_iff_of_truth_values :
    let p : Producer := ⟨"Source", 9, 5, 4, .list [.text "a", .text "b", .text "c"]⟩
    let session : Session := ⟨[("source", p)]⟩
    let made := session.perform
      (.create "made" "Source" (.indexed (.bool true)) (.plain (.int 7)) (.producer "source"))
    let refused := session.perform
      (.create "made" "Source" (.plain (.bool true)) (.plain (.int (-1))) (.value .null))
    made.2 = .ok .null ∧
      made.1.find? "made" = some ⟨"Source", 1, 7, 0,
        .list [.text "b", .text "c", .text "a", .text "b", .text "c"]⟩ ∧
      refused = (session, .error (.badCount "limit" .truthValue)) := by
  intro p session made refused
  have hkind : "Source".toList.contains '\x00' = false := by decide
  have hfind : session.find? "source" = some p := rfl
  have hpos : 0 < [Value.text "a", .text "b", .text "c"].length := by decide
  have hroom : (Source.producer "source").HasRoom session := by
    intro q hq
    cases hfind.symm.trans hq
    unfold Container.HasRoom Machine.referenceSize Machine.memoryBound
    decide
  have hleft : membersFrom _ hpos p.position p.remaining =
      [.text "b", .text "c", .text "a", .text "b", .text "c"] := by
    simp [membersFrom, memberAt, p, remaining, List.range_succ]
  have hvalid : Valid session (.indexed (.bool true)) (.plain (.int 7)) (.producer "source") 1 7
      [.text "b", .text "c", .text "a", .text "b", .text "c"] :=
    ⟨.indexedTruth true, .plain 7, hroom, hleft ▸ .producer hfind rfl hpos, by simp⟩
  have hfault : FirstFault session (.plain (.bool true)) (.plain (.int (-1))) (.value .null)
      (.badCount "limit" .truthValue) := .limit (.truthValue true)
  have hproducer : (Source.producer "source").Stands session :=
    ⟨p, _, hfind, rfl, hpos, by decide⟩
  have hvalue : (Source.value .null).Stands session := trivial
  obtain ⟨hmade, hfound, _⟩ := perform_create_eq_ok_iff hkind hproducer "made"
    (.indexed (.bool true)) (.plain (.int 7))
  obtain ⟨_, _, herror, hsame, _⟩ := perform_create_eq_ok_iff hkind hvalue "made"
    (.plain (.bool true)) (.plain (.int (-1)))
  have hrefused : refused.2 = .error (.badCount "limit" .truthValue) := (herror _).mpr hfault
  exact ⟨hmade.mpr ⟨1, 7, _, hvalid⟩, (hfound _ _ _ hvalid).1,
    Prod.ext (hsame _ hrefused) hrefused⟩

/-- Counts and a source that yields three items are not enough where the source claims 2 to the
power of 52 items: there is no room to gather them in. -/
theorem perform_create_of_three_items_beyond_room :
    let p : Producer := ⟨"Source", 3, 0x10000000000000, 0, .list [.text "x", .text "y"]⟩
    let session : Session := ⟨[("source", p)]⟩
    let limit : Argument := .plain (.int 1)
    let claimed : Argument := .plain (.int 0)
    let made := session.perform (.create "made" "Source" limit claimed (.producer "source"))
    session.find? "source" = some p ∧ p.claimed < Container.lengthBound ∧
      limit.IsCount 1 ∧ claimed.IsCount 0 ∧
      (Source.producer "source").Yields session [.text "x", .text "y", .text "x"] ∧
      made = (session, .error (.memory .noRoom)) ∧ made.2 ≠ .ok .null := by
  intro p session limit claimed made
  have hfind : session.find? "source" = some p := rfl
  have hpos : 0 < [Value.text "x", .text "y"].length := by decide
  have hleft : membersFrom _ hpos p.position p.remaining = [.text "x", .text "y", .text "x"] := by
    simp [membersFrom, memberAt, p, remaining, List.range_succ]
  have hmade : made = (session, .error (.memory .noRoom)) := rfl
  refine ⟨hfind, by decide, .plain 1, .plain 0, hleft ▸ .producer hfind rfl hpos, hmade, ?_⟩
  rw [hmade]
  intro hok
  cases hok

end Session

end Producer

end Fixtures
