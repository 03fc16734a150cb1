import ClassLang.Decl

/-! # Class hierarchies

The declared classes in an order in which every class follows its parent. The list is kept latest
first, so that the ancestors of a class stand behind it and a walk to the root is one pass. -/

namespace ClassLang

/-- The classes met on the way from `name` to its root, itself first. -/
def chain (name : String) : List ClassDecl → List ClassDecl
  | [] => []
  | c :: earlier =>
    if c.name = name then
      c :: match c.parent with
        | none => []
        | some p => chain p earlier
    else chain name earlier

@[simp] theorem chain_nil (name : String) : chain name [] = [] := rfl

theorem chain_of_name_ne {c : ClassDecl} {name : String} (h : c.name ≠ name)
    (earlier : List ClassDecl) : chain name (c :: earlier) = chain name earlier := by
  simp [chain, h]

theorem chain_of_root {c : ClassDecl} (h : c.parent = none) (earlier : List ClassDecl) :
    chain c.name (c :: earlier) = [c] := by
  simp [chain, h]

theorem chain_of_parent {c : ClassDecl} {p : String} (h : c.parent = some p)
    (earlier : List ClassDecl) : chain c.name (c :: earlier) = c :: chain p earlier := by
  simp [chain, h]

theorem mem_of_mem_chain {c : ClassDecl} {name : String} {cs : List ClassDecl}
    (h : c ∈ chain name cs) : c ∈ cs := by
  induction cs generalizing name with
  | nil => simp at h
  | cons d earlier ih =>
    by_cases hd : d.name = name
    · subst hd
      cases hp : d.parent with
      | none => simp_all [chain_of_root hp]
      | some p =>
        rw [chain_of_parent hp, List.mem_cons] at h
        exact h.elim (· ▸ List.mem_cons_self) fun h => List.mem_cons_of_mem _ (ih h)
    · rw [chain_of_name_ne hd] at h
      exact List.mem_cons_of_mem _ (ih h)

structure Hierarchy where
  /-- Latest first. -/
  placed : List ClassDecl := []
  deriving Repr, Inhabited

namespace Hierarchy

/-- The classes with every parent before its children. -/
def order (h : Hierarchy) : List ClassDecl :=
  h.placed.reverse

def find? (h : Hierarchy) (name : String) : Option ClassDecl :=
  h.placed.find? (·.name == name)

def contains (h : Hierarchy) (name : String) : Bool :=
  h.placed.any (·.name == name)

/-- From the class itself up to its root; empty for an undeclared class. -/
def ancestors (h : Hierarchy) (name : String) : List ClassDecl :=
  chain name h.placed

/-- The field of the class, or else of the nearest ancestor that has one of this name. -/
def field? (h : Hierarchy) (className x : String) : Option VarDecl :=
  (h.ancestors className).findSome? (·.field? x)

/-- The method of the class, or else of the nearest ancestor that has one of this name. -/
def method? (h : Hierarchy) (className m : String) : Option MethodDecl :=
  (h.ancestors className).findSome? (·.method? m)

def isAncestorOrSelf (h : Hierarchy) (ancestor className : String) : Bool :=
  (h.ancestors className).any (·.name == ancestor)

theorem contains_iff {h : Hierarchy} {name : String} :
    h.contains name = true ↔ ∃ c ∈ h.placed, c.name = name := by
  simp [contains]

theorem mem_order {h : Hierarchy} {c : ClassDecl} : c ∈ h.order ↔ c ∈ h.placed := by
  simp [order]

theorem isAncestorOrSelf_iff {h : Hierarchy} {ancestor className : String} :
    h.isAncestorOrSelf ancestor className = true ↔
      ∃ c ∈ h.ancestors className, c.name = ancestor := by
  simp [isAncestorOrSelf]

end Hierarchy
end ClassLang
