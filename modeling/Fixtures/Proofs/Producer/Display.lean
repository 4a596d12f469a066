import Fixtures.Producer.Basic
import Fixtures.Proofs.Value.Printer

/-!
# Texts of producers are unambiguous

The text of a producer tells its kind, its limit, its claim and its items: two producers without
floating point numbers among their items have the same text only if they have all of these in
common. The position is not shown. It does not matter which characters count as printable.
-/

namespace Fixtures.Producer

/-- Two producers have in common what their texts show. -/
structure ShownAlike (p q : Producer) : Prop where
  /-- They are of one kind. -/
  kind_eq : p.kind = q.kind
  /-- They produce as many items in all. -/
  limit_eq : p.limit = q.limit
  /-- They claim to produce as many items. -/
  claimed_eq : p.claimed = q.claimed
  /-- They have the same items, each of the same kind and, to any depth, with the same members. -/
  items_eq : p.items = q.items

/-- What a text shows behind the name of the kind. -/
def shownBehindKind (printable : Char → Bool) (p : Producer) : List Char :=
  "limit=".toList ++ (Value.intChars p.limit ++ (", claimed=".toList ++
    (Value.intChars p.claimed ++ (", items=".toList ++ (Value.chars printable p.items ++ [')'])))))

/-- A text shows the kind up to the first parenthesis. -/
theorem chars_eq (printable : Char → Bool) (p : Producer) :
    p.chars printable = p.kind.toList ++ '(' :: p.shownBehindKind printable := by
  have hopen : "(limit=".toList = '(' :: "limit=".toList := by decide
  unfold chars shownBehindKind
  rw [← List.cons_append, ← hopen]
  simp only [List.append_assoc]

/-- The name of a kind without parentheses stands before the first one. -/
theorem takeWhile_chars (printable : Char → Bool) {p : Producer} (hp : '(' ∉ p.kind.toList) :
    (p.chars printable).takeWhile (· != '(') = p.kind.toList := by
  have hname : ∀ c ∈ p.kind.toList, (c != '(') = true := by
    intro c hc
    rw [bne_iff_ne]
    rintro rfl
    exact hp hc
  rw [chars_eq, List.takeWhile_append_of_pos hname, List.takeWhile_cons_of_neg (by decide),
    List.append_nil]

/-- A count is read up to the comma behind it. -/
theorem count_append_inj {m n : Nat} {next rest after : List Char}
    (hnext : ∀ rest, Value.EndsNumber (next ++ rest))
    (h : Value.intChars m ++ (next ++ rest) = Value.intChars n ++ (next ++ after)) :
    m = n ∧ rest = after := by
  obtain ⟨hcount, hrest⟩ := Value.intChars_append_inj (hnext rest) (hnext after) h
  exact ⟨Int.ofNat.inj hcount, List.append_cancel_left hrest⟩

/-- What is shown behind the kind tells the counts and the items. -/
theorem shownBehindKind_inj {printable : Char → Bool} {p q : Producer}
    (hp : p.items.FloatFree) (hq : q.items.FloatFree)
    (h : p.shownBehindKind printable = q.shownBehindKind printable) :
    p.limit = q.limit ∧ p.claimed = q.claimed ∧ p.items = q.items := by
  have hcomma (word rest : List Char) : Value.EndsNumber ((',' :: word) ++ rest) :=
    Value.endsNumber_cons (by decide) _
  have hparenthesis : Value.EndsNumber [')'] := Value.endsNumber_cons (by decide) _
  unfold shownBehindKind at h
  obtain ⟨hlimit, hclaimed⟩ := count_append_inj (hcomma " claimed=".toList)
    (List.append_cancel_left h)
  obtain ⟨hclaimed, hitems⟩ := count_append_inj (hcomma " items=".toList) hclaimed
  obtain ⟨hitems, _⟩ := Value.chars_append_inj p.items q.items hp hq hparenthesis hparenthesis
    hitems
  exact ⟨hlimit, hclaimed, hitems⟩

/-- **The text of a producer is unambiguous.** Let two producers hold no floating point numbers,
and let the names of their kinds be free of parentheses, as identifiers are. Then they have the same
text exactly if they have in common what it shows, each item with its kind and all its members.
So it is under every choice of the printable characters. -/
theorem display_eq_iff {p q : Producer} (hp : '(' ∉ p.kind.toList) (hq : '(' ∉ q.kind.toList)
    (hpitems : p.items.FloatFree) (hqitems : q.items.FloatFree) :
    (p.display = q.display ↔ ShownAlike p q) ∧
      ∀ printable, p.chars printable = q.chars printable ↔ ShownAlike p q := by
  have hchars (printable : Char → Bool) :
      p.chars printable = q.chars printable ↔ ShownAlike p q := by
    constructor
    · intro h
      have hkind : p.kind.toList = q.kind.toList := by
        rw [← takeWhile_chars printable hp, h, takeWhile_chars printable hq]
      rw [chars_eq, chars_eq, hkind] at h
      have hbehind := (List.cons.inj (List.append_cancel_left h)).2
      obtain ⟨hlimit, hclaimed, hitems⟩ := shownBehindKind_inj hpitems hqitems hbehind
      exact ⟨String.toList_inj.mp hkind, hlimit, hclaimed, hitems⟩
    · rintro ⟨hkind, hlimit, hclaimed, hitems⟩
      simp only [chars, hkind, hlimit, hclaimed, hitems]
  refine ⟨?_, hchars⟩
  rw [← hchars Text.isPrintable, display, display, String.ofList_inj]

/-- Items that are written alike but for their kind or their nesting have different texts: the truth
value and the integer one, a byte and a character, a tuple and a list of one member, a digit and its
number. -/
theorem display_eq_iff_of_lookalikes :
    let p : Producer := ⟨"Source", 3, 7, 0,
      .list [.bool true, .bytes [0x61], .tuple [.int 1], .text "1", .text "', '"]⟩
    let q : Producer := ⟨"Source", 3, 7, 2,
      .list [.int 1, .text "a", .list [.int 1], .int 1, .text "\", \""]⟩
    '(' ∉ p.kind.toList ∧ '(' ∉ q.kind.toList ∧ p.items.FloatFree ∧ q.items.FloatFree ∧
      p.display ≠ q.display := by
  intro p q
  have hkind : '(' ∉ p.kind.toList := by decide
  have hp : p.items.FloatFree := ⟨trivial, trivial, ⟨trivial, trivial⟩, trivial, trivial, trivial⟩
  have hq : q.items.FloatFree := ⟨trivial, trivial, ⟨trivial, trivial⟩, trivial, trivial, trivial⟩
  refine ⟨hkind, hkind, hp, hq, ?_⟩
  intro h
  have halike := (display_eq_iff (p := p) (q := q) hkind hkind hp hq).1.mp h
  have hfirst : Value.bool true = .int 1 := (List.cons.inj (Value.list.inj halike.items_eq)).1
  cases hfirst

end Fixtures.Producer
