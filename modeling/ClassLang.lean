import ClassLang.Ty
import ClassLang.Expr.Basic
import ClassLang.Expr.Equality
import ClassLang.Stmt.Basic
import ClassLang.Stmt.Equality
import ClassLang.Decl
import ClassLang.Text.Ranges
import ClassLang.Text.Unprintable
import ClassLang.Text.GraphemeExtend
import ClassLang.Text.Quoted
import ClassLang.Diagnostic
import ClassLang.Hierarchy.Basic
import ClassLang.Hierarchy.Build
import ClassLang.Hierarchy.Assignable
import ClassLang.Returns.Evidence
import ClassLang.Returns.Flow
import ClassLang.Scope
import ClassLang.Expr.Infer
import ClassLang.Checker.Basic
import ClassLang.Checker.Stmt
import ClassLang.Checker.Program
import ClassLang.Expr.Rules
import ClassLang.Hierarchy.Rooted
import ClassLang.Returns.Trace
import ClassLang.Returns.Definite
import ClassLang.Proofs.Hierarchy.Placement
import ClassLang.Proofs.Hierarchy.Outcome
import ClassLang.Proofs.Expr.Inversion
import ClassLang.Proofs.Expr.Typing
import ClassLang.Proofs.Checker.Runs
import ClassLang.Proofs.Stmt.Typing
import ClassLang.Proofs.Checker.Acceptance
import ClassLang.Proofs.Checker.Coverage
import ClassLang.Proofs.Returns.Paths
import ClassLang.Proofs.Returns.Soundness
import ClassLang.Proofs.Checker.Separate
import ClassLang.Proofs.Hierarchy.Embedding
import ClassLang.Proofs.Checker.Extension
import ClassLang.Proofs.Checker.Reordering
import ClassLang.Proofs.Checker.Truthful
import ClassLang.Proofs.Checker.Edits
import ClassLang.Proofs.Checker.Places
import ClassLang.Proofs.Checker.Coherence
import ClassLang.Proofs.Checker.Receivers
import ClassLang.Proofs.Renaming.Syntax
import ClassLang.Proofs.Checker.Annotations
import ClassLang.Proofs.Hierarchy.Ancestry
import ClassLang.Proofs.Hierarchy.Subtyping
import ClassLang.Proofs.Hierarchy.Arrays
import ClassLang.Proofs.Stmt.Frame
import ClassLang.Proofs.Returns.Neutral
import ClassLang.Proofs.Returns.Trees
import ClassLang.Proofs.Returns.Fold
import ClassLang.Proofs.Returns.Arms
import ClassLang.Proofs.Returns.FinalIf
import ClassLang.Proofs.Returns.SingleReturn
import ClassLang.Proofs.Renaming.Hierarchy
import ClassLang.Proofs.Renaming.Expr
import ClassLang.Proofs.Renaming.Program
import ClassLang.Proofs.Hierarchy.Members
import ClassLang.Proofs.Hierarchy.Rounds
import ClassLang.Proofs.Expr.Mismatch
import ClassLang.Proofs.Checker.Refusals
import ClassLang.Proofs.Checker.Consistent
import ClassLang.Proofs.Checker.Subsumption
import ClassLang.Proofs.Returns.Verdict
import ClassLang.Proofs.Returns.Insertion
