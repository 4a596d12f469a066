import Fixtures.Proofs.SeededBytes

/-!
# Draws that are repeated come to an end

A number below a bound is drawn again and again until it lies below the bound, and nothing limits
how often. Here the draw is described without a limit, as a run that ends with the first number that
is accepted. A generator has finitely many states, so a run that has not ended after as many draws
never ends: the limit of `below` hides nothing. Along the seeded recurrence every run ends, from
wherever it starts, and so seeded bytes are given however many are asked for.
-/

namespace Fixtures.Twister

namespace Generator

/-- The draw of a number below a bound without a limit: it ends with the first number that is
accepted, and goes on with the generator behind every number that is refused. -/
inductive Redraws (bound width : Nat) : Generator → Nat × Generator → Prop where
  /-- A number below the bound is accepted. -/
  | accepted {g : Generator} (h : (g.bits width).1 < bound) : Redraws bound width g (g.bits width)
  /-- Behind any other number there is another draw. -/
  | refused {g : Generator} {result : Nat × Generator} (h : bound ≤ (g.bits width).1)
    (rest : Redraws bound width (g.bits width).2 result) : Redraws bound width g result

variable {bound width : Nat} {g : Generator} {result : Nat × Generator}

/-- A run ends in one way only. -/
theorem Redraws.unique {other : Nat × Generator} (h : g.Redraws bound width result)
    (hother : g.Redraws bound width other) : result = other := by
  induction h with
  | accepted h =>
    cases hother with
    | accepted => rfl
    | refused hrefused => exact absurd h (Nat.not_lt_of_le hrefused)
  | refused h _ ih =>
    cases hother with
    | accepted haccepted => exact absurd haccepted (Nat.not_lt_of_le h)
    | refused _ hrest => exact ih hrest

/-- A run is one with a large enough number of attempts. -/
theorem redraws_iff_exists_redraw :
    g.Redraws bound width result ↔ ∃ attempts, g.redraw bound width attempts = some result := by
  constructor
  · intro h
    induction h with
    | accepted h =>
      refine ⟨1, ?_⟩
      rw [redraw]
      exact if_pos h
    | refused h _ ih =>
      obtain ⟨attempts, hrest⟩ := ih
      refine ⟨attempts + 1, ?_⟩
      rw [redraw]
      exact (if_neg (Nat.not_lt_of_le h)).trans hrest
  · rintro ⟨attempts, hredraw⟩
    induction attempts generalizing g with
    | zero => cases hredraw
    | succ attempts ih =>
      rw [redraw] at hredraw
      by_cases h : (g.bits width).1 < bound
      · obtain rfl : g.bits width = result := Option.some.inj ((if_pos h).symm.trans hredraw)
        exact .accepted h
      · exact .refused (Nat.le_of_not_lt h) (ih ((if_neg h).symm.trans hredraw))

/-! ## The limit of attempts hides nothing -/

/-- The generator behind a number of draws. -/
def behind (width : Nat) (g : Generator) (count : Nat) : Generator :=
  (fun g => (g.bits width).2)^[count] g

/-- No run ends where every number is refused. -/
theorem not_redraws_of_refused (h : ∀ count, bound ≤ ((g.behind width count).bits width).1) :
    ¬ g.Redraws bound width result := by
  intro hends
  induction hends with
  | accepted haccepted => exact Nat.not_lt_of_le (h 0) haccepted
  | refused _ _ ih => exact ih fun count => h (count + 1)

/-- Where no attempt succeeds, all numbers of the attempts have been refused. -/
theorem refused_of_redraw {attempts : Nat} (h : g.redraw bound width attempts = none) :
    ∀ count < attempts, bound ≤ ((g.behind width count).bits width).1 := by
  induction attempts generalizing g with
  | zero =>
    intro count hcount
    omega
  | succ attempts ih =>
    rw [redraw] at h
    by_cases haccepted : (g.bits width).1 < bound
    · have hdrawn := (if_pos haccepted).symm.trans h
      cases hdrawn
    · intro count hcount
      cases count with
      | zero => exact Nat.le_of_not_lt haccepted
      | succ count => exact ih ((if_neg haccepted).symm.trans h) count (by omega)

/-- After an output at least one and at most all words of the block have been given out. -/
theorem used_next (g : Generator) : 0 < g.next.2.used ∧ g.next.2.used ≤ 624 := by
  unfold next
  split
  · rename_i h
    exact ⟨Nat.succ_pos _, h⟩
  · exact ⟨Nat.one_pos, Nat.le_add_left 1 623⟩

/-- After a draw of bits at least one and at most all words of the block have been given out. -/
theorem used_bits (g : Generator) (hpos : 0 < width) :
    0 < (g.bits width).2.used ∧ (g.bits width).2.used ≤ 624 := by
  simp only [bits, if_neg (Nat.ne_of_gt hpos), digits, topBits]
  exact used_next _

/-- The state of a generator: the words of its block, and how many of them but one have been given
out. -/
def state (g : Generator) (h : 0 < g.used ∧ g.used ≤ 624) :
    (Fin 624 → Fin UInt32.size) × Fin 624 :=
  (fun i => g.block[i].toFin, ⟨g.used - 1, by omega⟩)

/-- Generators with one state are the same. -/
theorem eq_of_state_eq {g g' : Generator} {h : 0 < g.used ∧ g.used ≤ 624}
    {h' : 0 < g'.used ∧ g'.used ≤ 624} (hstate : g.state h = g'.state h') : g = g' := by
  obtain ⟨block, used⟩ := g
  obtain ⟨block', used'⟩ := g'
  obtain ⟨hblock, hused⟩ := Prod.mk.inj hstate
  have hsame : block = block' :=
    Vector.ext fun i hi => UInt32.toFin_inj.mp (congrFun hblock ⟨i, hi⟩)
  have hcount : used = used' := by
    have hval := congrArg Fin.val hused
    simp only at hval h h'
    omega
  rw [hsame, hcount]

/-- The number of states of a block of words with a place in it. -/
theorem card_states (bits places : Nat) :
    Fintype.card ((Fin places → Fin (2 ^ bits)) × Fin places) =
      Nat.pow 2 (bits * places) * places := by
  rw [Fintype.card_prod, Fintype.card_fun, Fintype.card_fin, Fintype.card_fin]
  exact congrArg (· * places) (Nat.pow_mul 2 bits places).symm

/-- One place more makes up for one attempt less. -/
theorem states_lt {exponent : Nat} (h : exponent ≠ 0) :
    Nat.pow 2 exponent * 624 < 625 * Nat.pow 2 exponent - 1 := by
  have hpow : 1 < Nat.pow 2 exponent := Nat.one_lt_two_pow h
  omega

/-- There are fewer states than attempts, even without the first of them. -/
theorem card_state_lt :
    Fintype.card ((Fin 624 → Fin UInt32.size) × Fin 624) < Fintype.card (Fin (stateBound - 1)) := by
  have hexponent : 32 * 624 ≠ 0 := by decide
  have hlt := states_lt hexponent
  rw [Fintype.card_fin]
  unfold stateBound
  exact lt_of_eq_of_lt (card_states 32 624) hlt

/-- A generator that stands behind some draws stands there again behind some more. -/
theorem behind_eq_behind_add (g : Generator) {i j : Nat} (h : g.behind width i = g.behind width j)
    (count : Nat) : g.behind width (count + i) = g.behind width (count + j) := by
  rw [behind, behind, Function.iterate_add_apply, Function.iterate_add_apply]
  exact congrArg _ h

/-- Among as many draws as there are states one state comes twice. -/
theorem exists_behind_eq (g : Generator) (hpos : 0 < width) :
    ∃ i j, i < j ∧ j < stateBound ∧ g.behind width i = g.behind width j := by
  have hused (count : Nat) :
      0 < (g.behind width (count + 1)).used ∧ (g.behind width (count + 1)).used ≤ 624 := by
    rw [behind, Function.iterate_succ_apply']
    exact used_bits _ hpos
  obtain ⟨i, j, hne, hstate⟩ := Fintype.exists_ne_map_eq_of_card_lt
    (fun i : Fin (stateBound - 1) => (g.behind width (i + 1)).state (hused i)) card_state_lt
  have hsame := eq_of_state_eq hstate
  rcases Nat.lt_or_gt_of_ne (fun h => hne (Fin.ext h)) with hlt | hgt
  · exact ⟨i + 1, j + 1, by omega, by omega, hsame⟩
  · exact ⟨j + 1, i + 1, by omega, by omega, hsame.symm⟩

/-- Where the numbers of as many attempts as there are states are refused, all are: every later
generator is one of those before. -/
theorem refused_of_stateBound (hpos : 0 < width)
    (h : ∀ count < stateBound, bound ≤ ((g.behind width count).bits width).1) (count : Nat) :
    bound ≤ ((g.behind width count).bits width).1 := by
  obtain ⟨i, j, hij, hj, hsame⟩ := g.exists_behind_eq hpos
  induction count using Nat.strong_induction_on with
  | _ count ih =>
    by_cases hcount : count < stateBound
    · exact h count hcount
    · have hearlier := ih (count - j + i) (by omega)
      have hround := g.behind_eq_behind_add hsame (count - j)
      rwa [hround, show count - j + j = count by omega] at hearlier

/-- **The limit of attempts hides nothing.** A number below a bound is drawn exactly if the draw
without a limit ends, and then it is what that draw ends with. -/
theorem below_eq_some_iff :
    g.below bound = some result ↔ g.Redraws bound (Nat.log2 bound + 1) result := by
  constructor
  · intro h
    exact redraws_iff_exists_redraw.mpr ⟨stateBound, h⟩
  · intro h
    cases hbelow : g.below bound with
    | some other =>
      have hother := redraws_iff_exists_redraw.mpr ⟨stateBound, hbelow⟩
      rw [hother.unique h]
    | none =>
      have hall := refused_of_stateBound (Nat.succ_pos _) (refused_of_redraw hbelow)
      exact absurd h (not_redraws_of_refused hall)

/-! ## Along the recurrence -/

/-- The generator behind a number of outputs. -/
def skip (count : Nat) (g : Generator) : Generator :=
  (fun g => g.next.2)^[count] g

/-- Behind some outputs a generator gives out the outputs of the recurrence from there on. -/
theorem stands_skip (key : List UInt32) (count : Nat) :
    ((ofKey key).skip count).Stands (Block.ofKey key) count := by
  induction count with
  | zero => exact stands_ofKey key
  | succ count ih =>
    obtain ⟨g', hnext, hstands⟩ := ih.next
    have hskip : (ofKey key).skip (count + 1) = g' := by
      rw [skip, Function.iterate_succ_apply']
      exact congrArg Prod.snd hnext
    rwa [hskip]

end Generator

end Fixtures.Twister

namespace Fixtures.SeededBytes

open Twister

/-- Bytes that are drawn one after the other, each without a limit. -/
def Drawn : Generator → List UInt8 → Prop
  | _, [] => True
  | g, b :: rest =>
    ∃ n g', g.Redraws Settings.byteUpperBound 8 (n, g') ∧ b = UInt8.ofNat n ∧ Drawn g' rest

/-- Bytes that are given have been drawn, each without a limit. -/
theorem drawn_of_draw {count : Nat} {drawn bytes : List UInt8} {g : Generator}
    (h : draw count drawn g = some bytes) :
    ∃ rest, bytes = drawn.reverse ++ rest ∧ Drawn g rest := by
  induction count generalizing drawn g with
  | zero =>
    refine ⟨[], ?_, trivial⟩
    rw [List.append_nil]
    exact (Option.some.inj h).symm
  | succ count ih =>
    rw [draw] at h
    cases hbelow : g.below Settings.byteUpperBound with
    | none =>
      rw [hbelow] at h
      cases h
    | some result =>
      obtain ⟨n, g'⟩ := result
      rw [hbelow] at h
      obtain ⟨rest, rfl, hrest⟩ := ih h
      refine ⟨UInt8.ofNat n :: rest, ?_, n, g', ?_, rfl, hrest⟩
      · rw [List.reverse_cons, List.append_assoc, List.singleton_append]
      · exact Generator.below_eq_some_iff.mp hbelow

/-- The generator with the fixed seed gives out the outputs of the recurrence. -/
theorem next_skip (k : Nat) : (Generator.seeded.skip k).next.1 = output k := by
  obtain ⟨g', hnext, _⟩ := (Generator.stands_skip [42] k).next
  rw [output_eq]
  exact congrArg Prod.fst hnext

/-- **Every number of seeded bytes is given.** The bytes are drawn one after the other, each by a
draw that ends although nothing limits it. From wherever the generator with the fixed seed has got
to, there is a later output whose top bits are accepted, and the draw that starts there ends, in one
way only. -/
theorem ofValue_ends :
    (∀ n : Nat, ∃ bytes, ofValue (.int n) = .ok bytes ∧ bytes.length = n ∧
      Drawn Generator.seeded bytes) ∧
    ∀ k : Nat,
      (∃ later, k ≤ later ∧ ((Generator.seeded.skip later).next.1 >>> 24).toNat ≠ 255) ∧
      ∃! drawn, (Generator.seeded.skip k).Redraws Settings.byteUpperBound 8 drawn := by
  refine ⟨fun n => ?_, fun k => ⟨?_, ?_⟩⟩
  · have hfirst : draw n [] Generator.seeded = some (window 0 n) := first_eq n
    obtain ⟨rest, hrest, hdrawn⟩ := drawn_of_draw hfirst
    rw [List.reverse_nil, List.nil_append] at hrest
    refine ⟨window 0 n, ofValue_int n, ?_, hrest ▸ hdrawn⟩
    rw [window, List.length_map, List.length_range]
  · obtain ⟨later, hkept, hlt⟩ := infinite_isKept.exists_gt k
    refine ⟨later, Nat.le_of_lt hlt, fun h255 => hkept (UInt8.toNat_inj.mp ?_)⟩
    rw [next_skip] at h255
    rw [topByte, UInt32.toNat_toUInt8, h255]
    rfl
  · obtain ⟨count, g', _, _, hbelow, _⟩ := (Generator.stands_skip [42] k).below
      (show 0 < Settings.byteUpperBound by decide) (by decide)
    have hends := Generator.below_eq_some_iff.mp hbelow
    exact ⟨_, hends, fun other hother => hother.unique hends⟩

end Fixtures.SeededBytes
