import ClassLang.Diagnostic
import ClassLang.Hierarchy.Basic

/-! # Building a hierarchy

Class names have to be unique and parents declared. The classes are then placed in sweeps: each
sweep goes through the waiting classes in source order and places those whose parent stands
already, and a sweep that places none has found a cycle. -/

namespace ClassLang

/-- The first name that also occurs earlier. -/
def firstRepeated? (seen : List String) : List String → Option String
  | [] => none
  | n :: ns => if n ∈ seen then some n else firstRepeated? (n :: seen) ns

/-- The parent of the first class whose parent is not among the classes. -/
def firstOrphanParent? (classes : List ClassDecl) : Option String :=
  classes.findSome? fun c => c.parent.filter fun p => !classes.any (·.name == p)

/-- No parent, or one that has been placed. -/
def ClassDecl.isReady (c : ClassDecl) (placed : List ClassDecl) : Bool :=
  match c.parent with
  | none => true
  | some p => placed.any (·.name == p)

/-- One pass over the waiting classes: those placed after it, latest first, and those that still
wait. A class placed in the pass makes its children ready for the rest of it. -/
def sweep (placed : List ClassDecl) : List ClassDecl → List ClassDecl × List ClassDecl
  | [] => (placed, [])
  | c :: waiting =>
    if c.isReady placed then sweep (c :: placed) waiting
    else
      let (placed', waiting') := sweep placed waiting
      (placed', c :: waiting')

theorem sweep_of_ready {c : ClassDecl} {placed : List ClassDecl} (h : c.isReady placed = true)
    (waiting : List ClassDecl) : sweep placed (c :: waiting) = sweep (c :: placed) waiting := by
  simp [sweep, h]

theorem sweep_of_not_ready {c : ClassDecl} {placed : List ClassDecl}
    (h : c.isReady placed = false) (waiting : List ClassDecl) :
    sweep placed (c :: waiting) =
      ((sweep placed waiting).1, c :: (sweep placed waiting).2) := by
  simp [sweep, h]

/-- Sweeps until no class waits, or fails with the classes that none of them could place. -/
def settle (placed waiting : List ClassDecl) : Except Diagnostic (List ClassDecl) :=
  if waiting.isEmpty then .ok placed
  else
    let next := sweep placed waiting
    if next.2.length < waiting.length then settle next.1 next.2
    else .error ⟨.cyclicHierarchy (next.2.map (·.name)), .program⟩
termination_by waiting.length

theorem settle_nil (placed : List ClassDecl) : settle placed [] = .ok placed := by
  simp [settle]

theorem settle_of_progress {placed waiting : List ClassDecl}
    (h : (sweep placed waiting).2.length < waiting.length) :
    settle placed waiting = settle (sweep placed waiting).1 (sweep placed waiting).2 := by
  have hne : waiting ≠ [] := List.ne_nil_of_length_pos (Nat.zero_lt_of_lt h)
  rw [settle, if_neg (by simpa using hne)]
  exact if_pos h

theorem settle_of_stuck {placed waiting : List ClassDecl} (hne : waiting ≠ [])
    (h : ¬ (sweep placed waiting).2.length < waiting.length) :
    settle placed waiting =
      .error ⟨.cyclicHierarchy ((sweep placed waiting).2.map (·.name)), .program⟩ := by
  rw [settle, if_neg (by simpa using hne)]
  exact if_neg h

def Hierarchy.build (classes : List ClassDecl) : Except Diagnostic Hierarchy :=
  match firstRepeated? [] (classes.map (·.name)) with
  | some c => .error ⟨.duplicateClass c, .classDecl⟩
  | none =>
    match firstOrphanParent? classes with
    | some p => .error ⟨.unknownClass p, .classDecl⟩
    | none => (settle [] classes).map Hierarchy.mk

end ClassLang
