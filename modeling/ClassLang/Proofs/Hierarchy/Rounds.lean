import ClassLang.Proofs.Hierarchy.Ancestry
import Mathlib.Data.List.Nodup

/-! # The order of a hierarchy

How many sweeps a class has to wait for is told by its way to the root: one for each class on it
that stands in the source before its own parent. A sweep places the classes of one such round, in
source order, since a class that stands behind its parent is placed in the same sweep as that. So
the order is by rounds and, in a round, by the source. -/

namespace ClassLang

/-! ## Positions in the source -/

def ClassDecl.position (c : ClassDecl) (classes : List ClassDecl) : Nat :=
  (classes.map (·.name)).idxOf c.name

theorem ClassDecl.position_of_split {before after : List ClassDecl} {c : ClassDecl}
    (hnodup : ((before ++ c :: after).map (·.name)).Nodup) :
    c.position (before ++ c :: after) = before.length := by
  rw [List.map_append, List.map_cons] at hnodup
  have hfresh : c.name ∉ before.map (·.name) :=
    fun hmem => (List.nodup_append.mp hnodup).2.2 _ hmem _ List.mem_cons_self rfl
  rw [position, List.map_append, List.map_cons, List.idxOf_append_of_notMem hfresh,
    List.idxOf_cons_self, List.length_map, Nat.add_zero]

/-- Where a class stands in the source, the classes of a smaller position stand before it. -/
theorem ClassDecl.position_lt_iff {before after : List ClassDecl} {c d : ClassDecl}
    (hnodup : ((before ++ c :: after).map (·.name)).Nodup) (hd : d ∈ before ++ c :: after) :
    d.position (before ++ c :: after) < c.position (before ++ c :: after) ↔ d ∈ before := by
  rw [position_of_split hnodup]
  have hbefore : d ∈ before → d.position (before ++ c :: after) < before.length := by
    intro hmem
    obtain ⟨first, last, rfl⟩ := List.append_of_mem hmem
    rw [List.append_assoc, List.cons_append] at hnodup ⊢
    rw [position_of_split hnodup, List.length_append, List.length_cons]
    omega
  refine ⟨fun hlt => ?_, hbefore⟩
  rcases List.mem_append.mp hd with hmem | hmem
  · exact hmem
  · obtain ⟨first, last, hsplit⟩ := List.append_of_mem hmem
    rw [hsplit, ← List.append_assoc] at hnodup hlt
    rw [position_of_split hnodup, List.length_append] at hlt
    omega

theorem pairwise_position {classes : List ClassDecl} (hnodup : (classes.map (·.name)).Nodup) :
    classes.Pairwise fun c d => c.position classes < d.position classes := by
  rw [List.pairwise_iff_getElem]
  intro i j hi hj hij
  have hposition (k : Nat) (hk : k < classes.length) : classes[k].position classes = k := by
    have hk' : k < (classes.map (·.name)).length := by simpa using hk
    simpa [ClassDecl.position] using hnodup.idxOf_getElem k hk'
  rwa [hposition i hi, hposition j hj]

/-! ## Rounds -/

/-- A root is in the first round. A child is in the round of its parent if the parent stands before
it in the source, and in the next one otherwise. -/
structure IsRound (classes : List ClassDecl) (round : ClassDecl → Nat) : Prop where
  root : ∀ c ∈ classes, c.parent = none → round c = 1
  child : ∀ c d, ParentLink classes c d →
    round c = if d.position classes < c.position classes then round d else round d + 1

/-- By rounds first, and by the source within a round. -/
def ClassDecl.ComesBefore (classes : List ClassDecl) (round : ClassDecl → Nat)
    (c d : ClassDecl) : Prop :=
  round c < round d ∨ round c = round d ∧ c.position classes < d.position classes

/-- The round of the first class on a way up, read off the positions. -/
def roundOf (classes : List ClassDecl) : (way : List ClassDecl) → Nat
  | [] => 0
  | [_] => 1
  | c :: d :: way =>
    if d.position classes < c.position classes then roundOf classes (d :: way)
    else roundOf classes (d :: way) + 1

theorem Hierarchy.Arranges.isRound {h : Hierarchy} {classes : List ClassDecl}
    (harr : h.Arranges classes) :
    IsRound classes fun c => roundOf classes (h.ancestors c.name) where
  root c hc hp := by
    rw [harr.ancestors_of_root hc hp, roundOf]
  child c d hlink := by
    obtain ⟨hc, hd, hp⟩ := hlink
    simp only [harr.ancestors_of_parent hc hp]
    rw [harr.ancestors_eq hd, roundOf]

namespace IsRound

variable {classes : List ClassDecl} {round round' : ClassDecl → Nat}
  (hround : IsRound classes round)

include hround

theorem eq_of_rooted (hround' : IsRound classes round') {c : ClassDecl} (hc : Rooted classes c) :
    round c = round' c := by
  induction hc with
  | root hc hp => rw [hround.root _ hc hp, hround'.root _ hc hp]
  | child hc hp hd ih =>
    have hlink := And.intro hc (And.intro hd.mem hp)
    rw [hround.child _ _ hlink, hround'.child _ _ hlink, ih]

theorem pos_of_rooted {c : ClassDecl} (hc : Rooted classes c) : 0 < round c := by
  induction hc with
  | root hc hp => simp [hround.root _ hc hp]
  | child hc hp hd ih =>
    rw [hround.child _ _ ⟨hc, hd.mem, hp⟩]
    split_ifs <;> omega

end IsRound

/-! ## Sweeps -/

/-- The classes of the first rounds, latest first. -/
def placedAfter (classes : List ClassDecl) (round : ClassDecl → Nat) : Nat → List ClassDecl
  | 0 => []
  | n + 1 => (classes.filter (round · = n + 1)).reverse ++ placedAfter classes round n

section Sweeps

variable {classes : List ClassDecl} {round : ClassDecl → Nat}

theorem mem_placedAfter {n : Nat} {c : ClassDecl} :
    c ∈ placedAfter classes round n ↔ c ∈ classes ∧ 0 < round c ∧ round c ≤ n := by
  induction n with
  | zero =>
    simp only [placedAfter, List.not_mem_nil, false_iff]
    omega
  | succ n ih =>
    simp only [placedAfter, List.mem_append, List.mem_reverse, List.mem_filter,
      decide_eq_true_eq, ih]
    constructor
    · rintro (⟨hc, hn⟩ | ⟨hc, hpos, hn⟩)
      · exact ⟨hc, by omega, by omega⟩
      · exact ⟨hc, hpos, by omega⟩
    · rintro ⟨hc, hpos, hn⟩
      by_cases hlast : round c = n + 1
      · exact .inl ⟨hc, hlast⟩
      · exact .inr ⟨hc, hpos, by omega⟩

theorem pairwise_placedAfter (hnodup : (classes.map (·.name)).Nodup) (n : Nat) :
    (placedAfter classes round n).reverse.Pairwise (ClassDecl.ComesBefore classes round) := by
  induction n with
  | zero => simp [placedAfter]
  | succ n ih =>
    rw [placedAfter, List.reverse_append, List.reverse_reverse, List.pairwise_append]
    refine ⟨ih, ?_, ?_⟩
    · apply ((pairwise_position hnodup).filter _).imp_of_mem
      intro c d hc hd hlt
      have hcn : round c = n + 1 := by simpa using (List.mem_filter.mp hc).2
      have hdn : round d = n + 1 := by simpa using (List.mem_filter.mp hd).2
      exact .inr ⟨hcn.trans hdn.symm, hlt⟩
    · intro c hc d hd
      have hcn := (mem_placedAfter.mp (List.mem_reverse.mp hc)).2.2
      have hdn : round d = n + 1 := by simpa using (List.mem_filter.mp hd).2
      exact .inl (by omega)

variable (hnodup : (classes.map (·.name)).Nodup) (hroots : ∀ c ∈ classes, Rooted classes c)
  (hround : IsRound classes round)

include hnodup hroots hround

/-- When a sweep comes to a waiting class, those of earlier rounds are placed, and so are those of
this round that stand before it. It is ready if and only if this is its round. -/
theorem isReady_iff_round {before after : List ClassDecl} {c : ClassDecl} {n : Nat}
    (hsplit : classes = before ++ c :: after) (hc : n < round c) :
    c.isReady ((before.filter (round · = n + 1)).reverse ++ placedAfter classes round n) = true ↔
      round c = n + 1 := by
  have hmem : c ∈ classes := by simp [hsplit]
  cases hp : c.parent with
  | none =>
    have hfirst := hround.root c hmem hp
    have hready : c.isReady ((before.filter (round · = n + 1)).reverse ++
        placedAfter classes round n) = true := by
      simp [ClassDecl.isReady, hp]
    exact ⟨fun _ => by omega, fun _ => hready⟩
  | some p =>
    obtain ⟨d, hd, rfl⟩ := (hroots c hmem).exists_parent hp
    have hpos := hround.pos_of_rooted hd
    have hplaced : c.isReady ((before.filter (round · = n + 1)).reverse ++
        placedAfter classes round n) = true ↔ d ∈ before ∧ round d = n + 1 ∨ round d ≤ n := by
      rw [ClassDecl.isReady_iff, hp]
      simp only [Option.some.injEq, forall_eq', List.mem_append, List.mem_reverse,
        List.mem_filter, decide_eq_true_eq, mem_placedAfter]
      constructor
      · rintro ⟨e, he, hname⟩
        have heq : e ∈ classes → e = d :=
          fun hmem => List.inj_on_of_nodup_map hnodup hmem hd.mem hname
        rcases he with ⟨he, hn⟩ | ⟨he, -, hn⟩
        · obtain rfl := heq (by simp [hsplit, he])
          exact .inl ⟨he, hn⟩
        · obtain rfl := heq he
          exact .inr hn
      · rintro (hbefore | hn)
        · exact ⟨d, .inl hbefore, rfl⟩
        · exact ⟨d, .inr ⟨hd.mem, hpos, hn⟩, rfl⟩
    have hchild := hround.child c d ⟨hmem, hd.mem, hp⟩
    have hposition : d.position classes < c.position classes ↔ d ∈ before := by
      subst hsplit
      exact ClassDecl.position_lt_iff hnodup hd.mem
    rw [hplaced]
    by_cases hbefore : d ∈ before
    · rw [if_pos (hposition.mpr hbefore)] at hchild
      simp only [hbefore, true_and]
      omega
    · rw [if_neg (mt hposition.mp hbefore)] at hchild
      simp only [hbefore, false_and, false_or]
      omega

/-- The rest of a sweep, when it has gone through the classes before. -/
theorem sweep_rest {before rest : List ClassDecl} (hsplit : classes = before ++ rest) (n : Nat) :
    sweep ((before.filter (round · = n + 1)).reverse ++ placedAfter classes round n)
        (rest.filter (n < round ·)) =
      (placedAfter classes round (n + 1), rest.filter (n + 1 < round ·)) := by
  induction rest generalizing before with
  | nil => simp [sweep, placedAfter, hsplit]
  | cons c rest ih =>
    have ih := ih (hsplit.trans (List.append_cons before c rest))
    rw [List.filter_append, List.reverse_append] at ih
    have hready (hc : n < round c) := isReady_iff_round hnodup hroots hround hsplit hc
    rcases Nat.lt_trichotomy (round c) (n + 1) with hlt | heq | hgt
    · -- The class has been placed in an earlier sweep.
      have hother : ¬ round c = n + 1 := by omega
      have hearlier : ¬ n < round c ∧ ¬ n + 1 < round c := by omega
      simpa [hother, hearlier] using ih
    · have hnow : n < round c ∧ ¬ n + 1 < round c := by omega
      rw [List.filter_cons_of_pos (by simpa using hnow.1),
        List.filter_cons_of_neg (by simpa using hnow.2), sweep_of_ready ((hready hnow.1).mpr heq)]
      simpa [heq] using ih
    · have hother : ¬ round c = n + 1 := by omega
      have hlater : n < round c ∧ n + 1 < round c := by omega
      have hwait := Bool.eq_false_iff.mpr (mt (hready hlater.1).mp hother)
      rw [List.filter_cons_of_pos (by simpa using hlater.1),
        List.filter_cons_of_pos (by simpa using hlater.2), sweep_of_not_ready hwait]
      rw [List.filter_cons_of_neg (by simpa using hother), List.filter_nil, List.reverse_nil,
        List.nil_append] at ih
      rw [ih]

/-- One sweep places one round. -/
theorem sweep_round (n : Nat) :
    sweep (placedAfter classes round n) (classes.filter (n < round ·)) =
      (placedAfter classes round (n + 1), classes.filter (n + 1 < round ·)) :=
  sweep_rest hnodup hroots hround (List.nil_append classes).symm n

/-- From round to round, until no class waits. -/
theorem exists_placedAfter_of_settle {start waiting placed : List ClassDecl}
    (hsettle : settle start waiting = .ok placed) (n : Nat)
    (hstart : start = placedAfter classes round n)
    (hwaiting : waiting = classes.filter (n < round ·)) :
    ∃ m, placed = placedAfter classes round m := by
  revert n
  induction start, waiting using settle.induct with
  | case1 start waiting hempty =>
    intro n hstart hwaiting
    obtain rfl : waiting = [] := by simpa using hempty
    rw [settle_nil] at hsettle
    cases hsettle
    exact ⟨n, hstart⟩
  | case2 start waiting hempty next hlt ih =>
    rintro n rfl rfl
    rw [settle_of_progress hlt] at hsettle
    have hnext : next = _ := sweep_round hnodup hroots hround n
    exact ih hsettle (n + 1) (congrArg Prod.fst hnext) (congrArg Prod.snd hnext)
  | case3 start waiting hempty next hlt =>
    rw [settle_of_stuck (by simpa using hempty) hlt] at hsettle
    cases hsettle

end Sweeps

namespace Hierarchy

theorem settle_of_build {classes : List ClassDecl} {h : Hierarchy}
    (hbuild : build classes = .ok h) : settle [] classes = .ok h.placed := by
  rw [build] at hbuild
  cases hnames : firstRepeated? [] (classes.map (·.name)) with
  | some n => simp [hnames] at hbuild
  | none =>
    cases horphan : firstOrphanParent? classes with
    | some p => simp [hnames, horphan] at hbuild
    | none =>
      rw [hnames, horphan] at hbuild
      cases hsettle : settle [] classes with
      | error d => simp [hsettle, Except.map] at hbuild
      | ok placed =>
        simp only [hsettle, Except.map, Except.ok.injEq] at hbuild
        rw [← hbuild]

theorem pairwise_order {classes : List ClassDecl} {h : Hierarchy} (hbuild : build classes = .ok h)
    {round : ClassDecl → Nat} (hround : IsRound classes round) :
    h.order.Pairwise (ClassDecl.ComesBefore classes round) := by
  have harr := arranges_of_build hbuild
  have hroots : ∀ c ∈ classes, Rooted classes c := fun c hc => harr.rooted hc
  have hall : classes.filter (0 < round ·) = classes :=
    List.filter_eq_self.mpr fun c hc => by simpa using hround.pos_of_rooted (hroots c hc)
  obtain ⟨m, hm⟩ := exists_placedAfter_of_settle harr.nodup hroots hround
    (settle_of_build hbuild) 0 rfl hall.symm
  rw [order, hm]
  exact pairwise_placedAfter harr.nodup m

/-- Where all parents stand first, all classes are of the first round. -/
theorem isRound_one {classes : List ClassDecl} (hnodup : (classes.map (·.name)).Nodup)
    (hfirst : ParentsFirst classes.reverse) : IsRound classes fun _ => 1 where
  root _ _ _ := rfl
  child c d hlink := by
    obtain ⟨hc, hd, hp⟩ := hlink
    obtain ⟨before, after, rfl⟩ := List.append_of_mem hc
    rw [List.reverse_append, List.reverse_cons, List.append_assoc, List.singleton_append] at hfirst
    obtain ⟨e, he, hname⟩ := ClassDecl.isReady_iff.mp hfirst.isReady d.name hp
    rw [List.mem_reverse] at he
    obtain rfl := List.inj_on_of_nodup_map hnodup (List.mem_append_left _ he) hd hname
    rw [if_pos ((ClassDecl.position_lt_iff hnodup hd).mpr he)]

theorem order_of_parentsFirst {classes : List ClassDecl} {h : Hierarchy}
    (hbuild : build classes = .ok h) (hfirst : ParentsFirst classes.reverse) :
    h.order = classes := by
  have harr := arranges_of_build hbuild
  have horder := pairwise_order hbuild (isRound_one harr.nodup hfirst)
  apply List.Perm.eq_of_pairwise _ horder _ harr.perm_order
  · unfold ClassDecl.ComesBefore
    omega
  · exact (pairwise_position harr.nodup).imp fun hlt => .inr ⟨rfl, hlt⟩

theorem build_order {classes : List ClassDecl} {h : Hierarchy} (hbuild : build classes = .ok h) :
    build h.order = .ok h := by
  have harr := arranges_of_build hbuild
  have hplaced : ParentsFirst h.order.reverse := by
    rw [order, List.reverse_reverse]
    exact harr.parentsFirst
  have hnodup : (h.order.map (·.name)).Nodup := (harr.perm_order.map _).nodup_iff.mpr harr.nodup
  have hroots : ∀ c ∈ h.order, Rooted h.order c := by
    intro c hc
    exact rooted_of_mem_placed harr.parentsFirst (fun d hd => mem_order.mpr hd) (mem_order.mp hc)
  obtain ⟨h', hbuild'⟩ := exists_build_iff.mpr ⟨hnodup, hroots⟩
  have horder := order_of_parentsFirst hbuild' hplaced
  have heq : h'.placed = h.placed := List.reverse_injective horder
  obtain rfl : h' = h := congrArg mk heq
  exact hbuild'

/-- The rounds are told by the source, and the order of a built hierarchy holds the classes by their
rounds and then by the source. So parents come first, classes with the parents first are left as
they are, and ordering what is ordered changes nothing. -/
theorem order_by_rounds {classes : List ClassDecl} {h : Hierarchy}
    (hbuild : build classes = .ok h) :
    (∃ round, IsRound classes round ∧
      (∀ round', IsRound classes round' → ∀ c ∈ classes, round' c = round c) ∧
      h.order.Perm classes ∧ h.order.Pairwise (ClassDecl.ComesBefore classes round)) ∧
    (∀ before c after, h.order = before ++ c :: after →
      ∀ p, c.parent = some p → ∃ d ∈ before, d.name = p) ∧
    (ParentsFirst classes.reverse → h.order = classes) ∧
    build h.order = .ok h := by
  have harr := arranges_of_build hbuild
  refine ⟨⟨_, harr.isRound, ?_, harr.perm_order, pairwise_order hbuild harr.isRound⟩, ?_, ?_, ?_⟩
  · exact fun round' hround' c hc => hround'.eq_of_rooted harr.isRound (harr.rooted hc)
  · exact fun _ _ _ horder _ hp => harr.exists_parent_before horder hp
  · exact order_of_parentsFirst hbuild
  · exact build_order hbuild

end Hierarchy

/-- Three sweeps: the leaf stands before its parent, and this before the root. The twig comes in the
second, with its parent. -/
theorem build_reversed_tree : Hierarchy.build [leaf, branch, trunk, twig] =
    .ok ⟨[leaf, twig, branch, trunk]⟩ := by
  simp [Hierarchy.build, firstRepeated?, firstOrphanParent?, settle, sweep, ClassDecl.isReady,
    trunk, branch, leaf, twig, Except.map]

theorem Hierarchy.reversed_tree_by_rounds :
    build [leaf, branch, trunk, twig] = .ok ⟨[leaf, twig, branch, trunk]⟩ ∧
    ∃ round, IsRound [leaf, branch, trunk, twig] round ∧
      [trunk, branch, twig, leaf].Pairwise
        (ClassDecl.ComesBefore [leaf, branch, trunk, twig] round) ∧
      round trunk = 1 ∧ round branch = 2 ∧ round twig = 2 ∧ round leaf = 3 := by
  obtain ⟨⟨round, hround, -, -, horder⟩, -⟩ := order_by_rounds build_reversed_tree
  have htrunk : round trunk = 1 := hround.root trunk (by simp) rfl
  have hbranch : round branch = round trunk + 1 :=
    hround.child branch trunk ⟨by simp, by simp, rfl⟩
  have htwig : round twig = round branch := hround.child twig branch ⟨by simp, by simp, rfl⟩
  have hleaf : round leaf = round branch + 1 := hround.child leaf branch ⟨by simp, by simp, rfl⟩
  exact ⟨build_reversed_tree, round, hround, horder, by omega⟩

end ClassLang
