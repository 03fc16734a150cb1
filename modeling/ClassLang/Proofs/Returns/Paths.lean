import ClassLang.Returns.Definite

/-! # Paths through a body

The ways in which a run can leave a list of statements when its conditions may turn out either
way, each time anew. Definite return is the absence of a path to the end. -/

namespace ClassLang

inductive Exit where
  | returned
  | fellOff
  deriving DecidableEq, Repr

/-- Some choice of the conditions makes a run of the statements leave them in this way. A branch
or a loop body is run in front of the statements that follow it. -/
inductive Leaves : List Stmt → Exit → Prop
  | done : Leaves [] .fellOff
  | ret {value : Option Expr} {ss : List Stmt} : Leaves (.ret value :: ss) .returned
  | block {body ss : List Stmt} {e : Exit} (h : Leaves (body ++ ss) e) :
      Leaves (.block body :: ss) e
  | assign {target value : Expr} {ss : List Stmt} {e : Exit} (h : Leaves ss e) :
      Leaves (.assign target value :: ss) e
  | call {receiver : Expr} {m : String} {args : List Expr} {ss : List Stmt} {e : Exit}
      (h : Leaves ss e) : Leaves (.call receiver m args :: ss) e
  | print {arg : Option Expr} {ss : List Stmt} {e : Exit} (h : Leaves ss e) :
      Leaves (.print arg :: ss) e
  | enter {cond : Expr} {thn : Stmt} {ss : List Stmt} {e : Exit} (h : Leaves (thn :: ss) e) :
      Leaves (.ifThen cond thn :: ss) e
  | skip {cond : Expr} {thn : Stmt} {ss : List Stmt} {e : Exit} (h : Leaves ss e) :
      Leaves (.ifThen cond thn :: ss) e
  | left {cond : Expr} {thn els : Stmt} {ss : List Stmt} {e : Exit} (h : Leaves (thn :: ss) e) :
      Leaves (.ifElse cond thn els :: ss) e
  | right {cond : Expr} {thn els : Stmt} {ss : List Stmt} {e : Exit} (h : Leaves (els :: ss) e) :
      Leaves (.ifElse cond thn els :: ss) e
  | again {cond : Expr} {body : Stmt} {ss : List Stmt} {e : Exit}
      (h : Leaves (body :: .while cond body :: ss) e) : Leaves (.while cond body :: ss) e
  | stop {cond : Expr} {body : Stmt} {ss : List Stmt} {e : Exit} (h : Leaves ss e) :
      Leaves (.while cond body :: ss) e

namespace Stmt

@[simp] theorem anyDefinitelyReturns_append (ss ts : List Stmt) :
    anyDefinitelyReturns (ss ++ ts) = (anyDefinitelyReturns ss || anyDefinitelyReturns ts) := by
  simp [anyDefinitelyReturns_eq_any]

theorem eq_returned_of_anyDefinitelyReturns {ss : List Stmt} {e : Exit} (hl : Leaves ss e)
    (hd : anyDefinitelyReturns ss = true) : e = .returned := by
  -- Each step of a path keeps a definite return ahead of it, so it cannot come to the end.
  induction hl with
  | done => simp [anyDefinitelyReturns] at hd
  | ret => rfl
  | block _ ih =>
    apply ih
    simpa [anyDefinitelyReturns, definitelyReturns] using hd
  | left _ ih =>
    apply ih
    simp only [anyDefinitelyReturns, definitelyReturns, Bool.or_eq_true, Bool.and_eq_true] at hd ⊢
    exact hd.imp_left And.left
  | right _ ih =>
    apply ih
    simp only [anyDefinitelyReturns, definitelyReturns, Bool.or_eq_true, Bool.and_eq_true] at hd ⊢
    exact hd.imp_left And.right
  | enter _ ih =>
    apply ih
    simp only [anyDefinitelyReturns, definitelyReturns, Bool.false_or] at hd
    simp [anyDefinitelyReturns, hd]
  | again _ ih =>
    apply ih
    simp only [anyDefinitelyReturns, definitelyReturns, Bool.false_or] at hd
    simp [anyDefinitelyReturns, hd]
  | skip _ ih | stop _ ih | assign _ ih | call _ ih | print _ ih => exact ih hd

mutual
/-- A statement that does not definitely return can be passed. -/
theorem leaves_cons_of_not_definitelyReturns : ∀ (s : Stmt), s.definitelyReturns = false →
    ∀ {ss : List Stmt} {e : Exit}, Leaves ss e → Leaves (s :: ss) e
  | block body, hs, _, _, hl => .block (leaves_append_of_not_definitelyReturns body hs hl)
  | ifElse cond thn els, hs, _, _, hl => by
    rw [definitelyReturns, Bool.and_eq_false_iff] at hs
    rcases hs with hthn | hels
    · exact .left (leaves_cons_of_not_definitelyReturns thn hthn hl)
    · exact .right (leaves_cons_of_not_definitelyReturns els hels hl)
  | assign .., _, _, _, hl => .assign hl
  | call .., _, _, _, hl => .call hl
  | print _, _, _, _, hl => .print hl
  | ifThen .., _, _, _, hl => .skip hl
  | .while .., _, _, _, hl => .stop hl

theorem leaves_append_of_not_definitelyReturns : ∀ (body : List Stmt),
    anyDefinitelyReturns body = false →
      ∀ {ss : List Stmt} {e : Exit}, Leaves ss e → Leaves (body ++ ss) e
  | [], _, _, _, hl => hl
  | s :: body, hs, _, _, hl => by
    rw [anyDefinitelyReturns, Bool.or_eq_false_iff] at hs
    exact leaves_cons_of_not_definitelyReturns s hs.1
      (leaves_append_of_not_definitelyReturns body hs.2 hl)
end

theorem leaves_fellOff_of_not_definitelyReturns {body : List Stmt}
    (hd : anyDefinitelyReturns body = false) : Leaves body .fellOff := by
  have hpass := leaves_append_of_not_definitelyReturns body hd .done
  rwa [List.append_nil] at hpass

/-- A body definitely returns if and only if no run of it falls off the end. -/
theorem anyDefinitelyReturns_iff {body : List Stmt} :
    anyDefinitelyReturns body = true ↔ ¬ Leaves body .fellOff := by
  constructor
  · intro hd hl
    cases eq_returned_of_anyDefinitelyReturns hl hd
  · intro hl
    cases hd : anyDefinitelyReturns body with
    | true => rfl
    | false => exact (hl (leaves_fellOff_of_not_definitelyReturns hd)).elim

mutual
/-- A return stands in the statement, however deep. -/
def hasReturn : Stmt → Bool
  | ret _ => true
  | block body => anyHasReturn body
  | ifThen _ thn => thn.hasReturn
  | ifElse _ thn els => thn.hasReturn || els.hasReturn
  | .while _ body => body.hasReturn
  | assign .. | call .. | print _ => false

def anyHasReturn : List Stmt → Bool
  | [] => false
  | s :: ss => s.hasReturn || anyHasReturn ss
end

mutual
/-- A statement either returns by itself or lets a run through to a later return. -/
theorem leaves_returned_cons : ∀ (s : Stmt) {ss : List Stmt},
    Leaves ss .returned → Leaves (s :: ss) .returned
  | block body, _, hl => .block (leaves_returned_append body hl)
  | ifElse _ thn _, _, hl => .left (leaves_returned_cons thn hl)
  | assign .., _, hl => .assign hl
  | call .., _, hl => .call hl
  | print _, _, hl => .print hl
  | ifThen .., _, hl => .skip hl
  | .while .., _, hl => .stop hl
  | ret _, _, _ => .ret

theorem leaves_returned_append : ∀ (body : List Stmt) {ss : List Stmt},
    Leaves ss .returned → Leaves (body ++ ss) .returned
  | [], _, hl => hl
  | s :: body, _, hl => leaves_returned_cons s (leaves_returned_append body hl)
end

mutual
theorem leaves_returned_of_hasReturn : ∀ (s : Stmt), s.hasReturn = true →
    ∀ (ss : List Stmt), Leaves (s :: ss) .returned
  | ret _, _, _ => .ret
  | block body, hs, ss => .block (leaves_returned_of_anyHasReturn body hs ss)
  | ifThen _ thn, hs, ss => .enter (leaves_returned_of_hasReturn thn hs ss)
  | ifElse _ thn els, hs, ss => by
    rw [hasReturn, Bool.or_eq_true] at hs
    rcases hs with hthn | hels
    · exact .left (leaves_returned_of_hasReturn thn hthn ss)
    · exact .right (leaves_returned_of_hasReturn els hels ss)
  | .while _ body, hs, _ => .again (leaves_returned_of_hasReturn body hs _)

theorem leaves_returned_of_anyHasReturn : ∀ (body : List Stmt), anyHasReturn body = true →
    ∀ (ss : List Stmt), Leaves (body ++ ss) .returned
  | s :: body, hs, ss => by
    rw [anyHasReturn, Bool.or_eq_true] at hs
    rcases hs with hs | hbody
    · exact leaves_returned_of_hasReturn s hs (body ++ ss)
    · exact leaves_returned_cons s (leaves_returned_of_anyHasReturn body hbody ss)
end

end Stmt
end ClassLang
