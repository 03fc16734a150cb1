import ClassLang.Returns.Flow

/-! # The evidence of a text

The evidence that a statement leaves, read off its text alone. -/

namespace ClassLang

namespace Stmt

mutual
def evidence : Stmt → List Evidence
  | block body => evidenceAll body
  | ifThen _ thn => thn.thenEvidence :: thn.evidence
  | ifElse _ thn els =>
    thn.thenEvidence :: thn.evidence ++ els.elseEvidence :: els.evidence
  | .while _ body => body.loopEvidence ++ body.evidence
  | assign .. | call .. | print _ | ret _ => []

def evidenceAll : List Stmt → List Evidence
  | [] => []
  | s :: ss => s.evidence ++ evidenceAll ss
end

theorem evidenceAll_eq_flatMap (ss : List Stmt) : evidenceAll ss = ss.flatMap evidence := by
  induction ss with
  | nil => rfl
  | cons s ss ih => simp [evidenceAll, ih]

end Stmt

/-- The evidence of a method: that of its statements, and one piece for each return among them. -/
def bodyEvidence (body : List Stmt) : List Evidence :=
  body.flatMap fun s => s.evidence ++ if s.isReturn then [.ret] else []

@[simp] theorem bodyEvidence_nil : bodyEvidence [] = [] := rfl

theorem bodyEvidence_cons (s : Stmt) (body : List Stmt) :
    bodyEvidence (s :: body) =
      s.evidence ++ (if s.isReturn then [.ret] else []) ++ bodyEvidence body := by
  simp [bodyEvidence]

theorem bodyEvidence_append (body rest : List Stmt) :
    bodyEvidence (body ++ rest) = bodyEvidence body ++ bodyEvidence rest := by
  simp [bodyEvidence]

end ClassLang
