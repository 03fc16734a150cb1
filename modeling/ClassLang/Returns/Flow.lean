import ClassLang.Returns.Evidence

/-! # The verdict on returning

Evidence is folded, in the order in which it was recorded, into the verdict that a method always
returns. -/

namespace ClassLang

structure Flow where
  /-- The verdict so far. -/
  returned : Bool := false
  /-- A then-branch has returned, and its else-branch is still to come. -/
  awaitsElse : Bool := false
  /-- A branch with an `if` inside has been met. -/
  nested : Bool := false
  deriving DecidableEq, Repr

namespace Flow

/-- A branch that does not return takes the verdict back, and so does a loop that does, since its
body may never run. A returning then-branch waits for its else-branch; once a nested branch has
been met, a returning else-branch waits for another one instead. -/
def step (f : Flow) : Evidence → Flow
  | .ret => { f with returned := true }
  | .loop returns => { f with returned := !returns }
  | .nestedThen | .nestedElse => { f with nested := true }
  | .thenBranch false | .elseBranch false => { f with returned := false }
  | .thenBranch true => if f.nested then f else { f with awaitsElse := true }
  | .elseBranch true =>
    if f.awaitsElse then { f with returned := true, awaitsElse := false }
    else if f.nested then { f with awaitsElse := true }
    else f

def run (f : Flow) (evidence : List Evidence) : Flow :=
  evidence.foldl step f

@[simp] theorem run_nil (f : Flow) : f.run [] = f := rfl

@[simp] theorem run_cons (f : Flow) (e : Evidence) (es : List Evidence) :
    f.run (e :: es) = (f.step e).run es := rfl

theorem run_append (f : Flow) (es fs : List Evidence) : f.run (es ++ fs) = (f.run es).run fs :=
  List.foldl_append ..

end Flow

/-- The evidence shows that the method always returns. -/
def verdict (evidence : List Evidence) : Bool :=
  (Flow.run {} evidence).returned

end ClassLang
