import Fixtures.Proofs.Producer.Agreement
import Fixtures.Proofs.Producer.Isolation

/-!
# Producers of what another one had left

A producer that is made of another one goes over the items that the other one had left, from its
own start and up to its own limit. The other one is drained for that, and from then on the two have
nothing to do with each other. What a chain of such producers hands out at its end is what the
first one had left, with one remainder for each link.
-/

namespace Fixtures

namespace Producer

variable {xs : List Value} {hpos : 0 < xs.length} {p : Producer}

/-- What a producer of members has still to hand out, in order, and what it claims. -/
structure Outlook where
  /-- The items, which go on behind the last one that is handed out. -/
  item : Nat → Value
  /-- The number of items that are handed out. -/
  count : Nat
  /-- The claim. -/
  claimed : Nat

/-- The outlook of a producer of members. -/
def outlook (p : Producer) (xs : List Value) (hpos : 0 < xs.length) : Outlook :=
  ⟨fun j => memberAt xs hpos (p.position + j), p.remaining, p.claimed⟩

/-- A producer that is made of the one before it, and a number of items that are taken from it
before the next one is made. -/
structure Link where
  /-- The name, which may be the one of the producer before it. -/
  name : String
  /-- The kind. -/
  kind : String
  /-- The limit, as it is passed. -/
  limitArgument : Argument
  /-- The claim, as it is passed. -/
  claimedArgument : Argument
  /-- The limit. -/
  limit : Nat
  /-- The claim. -/
  claimed : Nat
  /-- The number of items that are taken. -/
  taken : Nat
  /-- The limit and the claim are what is passed. -/
  counts_eq : counts limitArgument claimedArgument = .ok (limit, claimed)
  /-- The kind has a name that a kind can have. -/
  kind_ok : kind.toList.contains '\x00' = false
  /-- There are as many items to be taken. -/
  taken_le : taken ≤ limit

/-- What is to come of a link that is made of a producer: over and over what that one had left,
behind the items that are taken. -/
def Outlook.fed (o : Outlook) (link : Link) : Outlook :=
  ⟨fun j => o.item ((link.taken + j) % o.count), link.limit - link.taken, link.claimed⟩

/-- Each link finds something left and room for what is claimed. -/
def Outlook.Feeds [Machine] : Outlook → List Link → Prop
  | _, [] => True
  | o, link :: rest =>
    (0 < o.count ∧ Container.list.HasRoom o.claimed) ∧ (o.fed link).Feeds rest

/-- The answers to the steps of a chain: each producer is made and hands out some items. -/
def Outlook.answers : Outlook → List Link → List (Except Failure Value)
  | _, [] => []
  | o, link :: rest =>
    .ok .null :: .ok (.list ((List.range link.taken).map fun j => o.item (j % o.count))) ::
      (o.fed link).answers rest

/-- The steps of a chain: each producer is made of the one before it, and hands out some items. -/
def chain : String → List Link → List Request
  | _, [] => []
  | source, link :: rest =>
    .create link.name link.kind link.limitArgument link.claimedArgument (.producer source) ::
      .act link.name (.take link.taken) :: chain link.name rest

/-- The name of the last producer of a chain. -/
def chainEnd : String → List Link → String
  | source, [] => source
  | _, link :: rest => chainEnd link.name rest

namespace Session

variable {session : Session} {source : String}

/-- To make a producer of another one is to gather what that one has left as a list, and to make it
of this list. -/
theorem perform_create_eq [Machine] (hfind : session.find? source = some p) {name kind : String}
    {limit claimed : Argument} {l c : Nat} (hcounts : counts limit claimed = .ok (l, c))
    (hkind : kind.toList.contains '\x00' = false) :
    session.perform (.create name kind limit claimed (.producer source)) =
      match p.perform (.collect .list) with
      | (q, .error failure) => (session.insert source q, .error failure)
      | (q, .ok items) => Session.store (session.insert source q) name
          (start kind l c (items.members?.getD [])) := by
  have hget : session.get source = .ok p := by
    simp only [Session.get, hfind]
  simp only [Session.perform, Session.create, hkind, Session.createFrom, hget, hcounts,
    Producer.perform]
  cases p.collect .list with
  | mk q gathered => cases gathered <;> rfl

/-- Where there is room for the claim of the source, a producer is made of the items that the source
has left, which is drained. -/
theorem perform_create_from [Machine] (hfind : session.find? source = some p)
    (hmembers : p.items.members? = some xs) (hpos : 0 < xs.length)
    (hroom : Container.list.HasRoom p.claimed) {name kind : String} {limit claimed : Argument}
    {l c : Nat} (hcounts : counts limit claimed = .ok (l, c))
    (hkind : kind.toList.contains '\x00' = false) :
    session.perform (.create name kind limit claimed (.producer source)) =
      Session.store (session.insert source (p.advance p.remaining)) name
        (start kind l c (membersFrom xs hpos p.position p.remaining)) := by
  have hcollect : p.perform (.collect .list) = (p.advance p.remaining,
      .ok (.list (membersFrom xs hpos p.position p.remaining))) :=
    perform_of_gathers hmembers (holds_of_hasRoom hroom) .list hroom
  rw [perform_create_eq hfind hcounts hkind, hcollect]
  rfl

/-- The producer of a name is one of members, and has an outlook. -/
def Offers (session : Session) (name : String) (o : Outlook) : Prop :=
  ∃ p xs, ∃ hpos : 0 < xs.length, session.find? name = some p ∧ p.items.members? = some xs ∧
    o = p.outlook xs hpos

/-- A producer that has an outlook delivers its items. -/
theorem Offers.delivers [Machine] {name : String} {o : Outlook} (h : session.Offers name o) :
    session.Delivers name ((List.range o.count).map o.item) := by
  obtain ⟨p, xs, hpos, hfind, hmembers, rfl⟩ := h
  exact (delivers_of_members hfind hmembers : session.Delivers name (membersFrom xs hpos _ _))

/-- A producer of what another one had left is put under its name if there is something left. -/
theorem perform_create_of_remaining_pos [Machine] (hfind : session.find? source = some p)
    (hmembers : p.items.members? = some xs) (hpos : 0 < xs.length)
    (hroom : Container.list.HasRoom p.claimed) (hleft : 0 < p.remaining) {name kind : String}
    {limit claimed : Argument} {l c : Nat} (hcounts : counts limit claimed = .ok (l, c))
    (hkind : kind.toList.contains '\x00' = false) :
    session.perform (.create name kind limit claimed (.producer source)) =
      ((session.insert source (p.advance p.remaining)).insert name
        ⟨kind, l, c, 0, .list (membersFrom xs hpos p.position p.remaining)⟩, .ok .null) := by
  rw [perform_create_from hfind hmembers hpos hroom hcounts hkind]
  rcases start_cases kind l c (membersFrom xs hpos p.position p.remaining) with
    ⟨hnil, _⟩ | ⟨_, hstart⟩
  · have hlength : (membersFrom xs hpos p.position p.remaining).length = p.remaining :=
      length_membersFrom _ _
    rw [hnil, List.length_nil] at hlength
    omega
  · rw [hstart, Session.store]

/-- A link of a chain has the outlook that the producer before it leaves to it. -/
theorem Offers.link [Machine] {o : Outlook} (h : session.Offers source o) (hcount : 0 < o.count)
    (hroom : Container.list.HasRoom o.claimed) (link : Link) (rest : List Request) :
    ∃ after : Session, after.Offers link.name (o.fed link) ∧
      session.run (.create link.name link.kind link.limitArgument link.claimedArgument
        (.producer source) :: .act link.name (.take link.taken) :: rest) =
      ((after.run rest).1, .ok .null ::
        .ok (.list ((List.range link.taken).map fun j => o.item (j % o.count))) ::
        (after.run rest).2) := by
  obtain ⟨p, xs, hpos, hfind, hmembers, rfl⟩ := h
  let ys := membersFrom xs hpos p.position p.remaining
  have hys : 0 < ys.length := by rwa [length_membersFrom]
  have hmember (place : Nat) :
      memberAt ys hys place = (p.outlook xs hpos).item (place % p.remaining) :=
    memberAt_membersFrom hys place
  let made : Producer := ⟨link.kind, link.limit, link.claimed, 0, .list ys⟩
  let before : Session := (session.insert source (p.advance p.remaining)).insert link.name made
  have hcreate : session.perform (.create link.name link.kind link.limitArgument
      link.claimedArgument (.producer source)) = (before, .ok .null) :=
    perform_create_of_remaining_pos hfind hmembers hpos hroom hcount link.counts_eq link.kind_ok
  have htake : before.perform (.act link.name (.take link.taken)) =
      (before.insert link.name (made.advance link.taken),
        .ok (.list ((List.range link.taken).map fun j =>
          (p.outlook xs hpos).item (j % p.remaining)))) := by
    have hall : min link.taken made.remaining = link.taken := Nat.min_eq_left link.taken_le
    have htaken : membersFrom ys hys 0 link.taken = (List.range link.taken).map fun j =>
        (p.outlook xs hpos).item (j % p.remaining) :=
      membersFrom_membersFrom hys link.taken
    rw [perform_act (Registry.find?_insert_self _ link.name made), ← htaken]
    simp only [Producer.perform, take_of_members (p := made) rfl hys, hall]
    rfl
  refine ⟨before.insert link.name (made.advance link.taken), ?_, ?_⟩
  · refine ⟨made.advance link.taken, ys, hys, Registry.find?_insert_self _ link.name _, rfl, ?_⟩
    rw [Outlook.fed, Outlook.mk.injEq]
    refine ⟨funext fun j => ?_, (remaining_advance made link.taken).symm, rfl⟩
    show _ = memberAt ys hys (0 + link.taken + j)
    rw [hmember, Nat.zero_add]
    rfl
  · simp only [Session.run, hcreate, htake]
    rfl

/-- The last producer of a chain has the outlook that all the links leave to it. -/
theorem Offers.chain [Machine] {o : Outlook} {links : List Link} (h : session.Offers source o)
    (hfeeds : o.Feeds links) :
    (session.run (chain source links)).2 = o.answers links ∧
      (session.run (chain source links)).1.Offers (chainEnd source links)
        (links.foldl Outlook.fed o) := by
  induction links generalizing session source o with
  | nil => exact ⟨rfl, h⟩
  | cons link rest ih =>
    obtain ⟨⟨hcount, hroom⟩, hrest⟩ := hfeeds
    obtain ⟨after, hafter, hrun⟩ := h.link hcount hroom link (Producer.chain link.name rest)
    obtain ⟨hanswers, hoffers⟩ := ih hafter hrest
    rw [Producer.chain, hrun]
    exact ⟨by rw [hanswers, Outlook.answers], hoffers⟩

/-- Where there is no room for the claim of the source no producer is made of it, and nothing is
taken. -/
theorem perform_create_of_no_room [Machine] (hfind : session.find? source = some p)
    (hlength : p.claimed < Container.lengthBound) (hnoRoom : ¬ Container.list.HasRoom p.claimed)
    {name kind : String} {limit claimed : Argument} {l c : Nat}
    (hcounts : counts limit claimed = .ok (l, c)) (hkind : kind.toList.contains '\x00' = false) :
    session.perform (.create name kind limit claimed (.producer source)) =
      (session, .error (.memory .noRoom)) := by
  have hrefused : p.perform (.collect .list) = (p, .error (.memory .noRoom)) :=
    perform_of_no_room hlength hnoRoom
  rw [perform_create_eq hfind hcounts hkind, hrefused]
  simp only [Registry.insert_of_find? hfind]

/-- **A producer of what another one had left.** Let the source have members to hand out and a claim
that is a length, and let the counts and the kind be accepted. Where there is no room for the claim,
and where nothing is left of the source, no producer is made and nothing is taken. Otherwise one is
made, the source is drained, and the items that come of the new producer are those that the source
had left, over and over: the one at a place is the member of the source at its position and the
remainder of the place. Neither producer matters to the other from then on. So it goes on along a
chain of producers, each made of the one before it, be it under a name of its own or in its place,
and some items being taken in between: every link answers with the items of its outlook, and the
last one delivers what the links have left to it. -/
theorem perform_create_of_producer [Machine] (hfind : session.find? source = some p)
    (hmembers : p.items.members? = some xs) (hpos : 0 < xs.length)
    (hwithin : p.position ≤ p.limit) (hlength : p.claimed < Container.lengthBound)
    {kind : String} {limit claimed : Argument} {l c : Nat}
    (hcounts : counts limit claimed = .ok (l, c)) (hkind : kind.toList.contains '\x00' = false)
    (name : String) :
    let request : Request := .create name kind limit claimed (.producer source)
    let after := (session.perform request).1
    (¬ Container.list.HasRoom p.claimed →
      session.perform request = (session, .error (.memory .noRoom))) ∧
    (Container.list.HasRoom p.claimed → p.remaining = 0 →
      session.perform request = (session, .error .noItems)) ∧
    (Container.list.HasRoom p.claimed → 0 < p.remaining →
      (session.perform request).2 = .ok .null ∧
      after.find? name =
        some ⟨kind, l, c, 0, .list (membersFrom xs hpos p.position p.remaining)⟩ ∧
      (source ≠ name → after.find? source = some { p with position := p.limit }) ∧
      (∀ other, other ≠ name → other ≠ source → after.find? other = session.find? other) ∧
      after.Apart name source ∧
      after.Delivers name
        ((List.range l).map fun j => memberAt xs hpos (p.position + j % p.remaining))) ∧
    ∀ links : List Link, (p.outlook xs hpos).Feeds links →
      let run := session.run (chain source links)
      let last := links.foldl Outlook.fed (p.outlook xs hpos)
      run.2 = (p.outlook xs hpos).answers links ∧
        run.1.Delivers (chainEnd source links) ((List.range last.count).map last.item) := by
  intro request after
  refine ⟨?_, ?_, ?_, ?_⟩
  · intro hnoRoom
    exact perform_create_of_no_room hfind hlength hnoRoom hcounts hkind
  · intro hroom hzero
    have hnothing : membersFrom xs hpos p.position 0 = [] := rfl
    have hcreate : session.perform request = _ :=
      perform_create_from hfind hmembers hpos hroom hcounts hkind
    rw [hcreate, hzero, hnothing, advance_zero, Registry.insert_of_find? hfind]
    rfl
  · intro hroom hleft
    let ys := membersFrom xs hpos p.position p.remaining
    have hys : 0 < ys.length := by rwa [length_membersFrom]
    have hcreate : session.perform request =
        ((session.insert source (p.advance p.remaining)).insert name ⟨kind, l, c, 0, .list ys⟩,
          .ok .null) :=
      perform_create_of_remaining_pos hfind hmembers hpos hroom hleft hcounts hkind
    have hafter : after =
        (session.insert source (p.advance p.remaining)).insert name ⟨kind, l, c, 0, .list ys⟩ :=
      congrArg Prod.fst hcreate
    have hmade : after.find? name = some ⟨kind, l, c, 0, .list ys⟩ := by
      rw [hafter]
      exact Registry.find?_insert_self _ name _
    refine ⟨by rw [hcreate], hmade, ?_, ?_, after.apart name source, ?_⟩
    · intro hne
      rw [hafter, Registry.find?_insert_of_ne _ hne, Registry.find?_insert_self,
        advance_remaining hwithin]
    · intro other hname hsource
      rw [hafter, Registry.find?_insert_of_ne _ hname, Registry.find?_insert_of_ne _ hsource]
    · rw [← membersFrom_membersFrom hys l]
      exact delivers_of_members hmade rfl
  · intro links hfeeds
    have hoffers : session.Offers source (p.outlook xs hpos) :=
      ⟨p, xs, hpos, hfind, hmembers, rfl⟩
    obtain ⟨hanswers, hlast⟩ := hoffers.chain hfeeds
    exact ⟨hanswers, hlast.delivers⟩

/-- Of three letters over and over a producer has five left, `bcabc`. One made of it in its place
goes over these five, and one made of that one after a first item goes on with the other ones. -/
theorem perform_create_of_producer_in_place :
    let p : Producer := ⟨"Source", 9, 5, 4, .list [.text "a", .text "b", .text "c"]⟩
    let session : Session := ⟨[("source", p)]⟩
    let seven : Argument := .plain (.int 7)
    let links : List Link :=
      [⟨"source", "Source", seven, seven, 7, 7, 1, rfl, by decide, by decide⟩,
        ⟨"end", "Source", seven, seven, 7, 7, 3, rfl, by decide, by decide⟩]
    session.find? "source" = some p ∧
      (session.perform (.create "source" "Source" seven seven (.producer "source"))).1.Delivers
        "source"
        [.text "b", .text "c", .text "a", .text "b", .text "c", .text "b", .text "c"] ∧
      (session.run (chain "source" links)).1.Delivers "end"
        [.text "c", .text "b", .text "c", .text "c"] := by
  intro p session seven links
  have hfind : session.find? "source" = some p := rfl
  have hpos : 0 < [Value.text "a", .text "b", .text "c"].length := by decide
  have hcounts : counts seven seven = .ok (7, 7) := rfl
  have hkind : "Source".toList.contains '\x00' = false := by decide
  obtain ⟨_, _, hmade, hchain⟩ := perform_create_of_producer hfind rfl hpos (by decide)
    (by decide) hcounts hkind "source"
  have hfive : Container.list.HasRoom 5 := by decide
  have hseven : Container.list.HasRoom 7 := by decide
  have hfeeds : (p.outlook _ hpos).Feeds links :=
    ⟨⟨Nat.zero_lt_succ 4, hfive⟩, ⟨Nat.zero_lt_succ 5, hseven⟩, trivial⟩
  obtain ⟨_, _, _, _, _, hdelivers⟩ := hmade hfive (by decide)
  obtain ⟨_, hlast⟩ := hchain links hfeeds
  refine ⟨hfind, ?_, ?_⟩
  · simpa [p, remaining, memberAt, List.range_succ] using hdelivers
  · simpa [p, links, remaining, outlook, Outlook.fed, chainEnd, memberAt, List.range_succ]
      using hlast

/-- A producer is made of the items of a list, which asks for as much room as is claimed. None is
made of a producer that claims 2 to the power of 52 items and has three left. -/
theorem perform_create_of_claim_beyond_room :
    let p : Producer := ⟨"Source", 3, 0x10000000000000, 0, .list [.text "x", .text "y"]⟩
    let session : Session := ⟨[("source", p)]⟩
    let request : Request :=
      .create "made" "Source" (.plain (.int 3)) (.plain (.int 0)) (.producer "source")
    session.find? "source" = some p ∧ p.claimed < Container.lengthBound ∧ 0 < p.remaining ∧
      session.perform request = (session, .error (.memory .noRoom)) ∧
      (session.perform request).2 ≠ .ok .null := by
  intro p session request
  have hperform : session.perform request = (session, .error (.memory .noRoom)) := rfl
  refine ⟨rfl, by decide, by decide, hperform, ?_⟩
  rw [hperform]
  intro hmade
  cases hmade

end Session

end Producer

end Fixtures
