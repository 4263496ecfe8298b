import Mathlib
import SolarFront.Syntax.Tree

/-!
# The number of nodes of a tree

Every expression, type, statement and declaration node counts one; initializer fields, members
and parameters carry no node of their own. The parser gives each node an identifier of its own,
so a module never has more nodes than identifiers were handed out. The checker's recursion
budget is set from that count: a chain of calls enters each node a bounded number of times.
-/

set_option autoImplicit false
set_option linter.all false

namespace SolarFront

mutual

/-- The nodes of an expression: itself and those inside it, types included. -/
def Expr.size : Expr → Nat
  | .mk _ _ kind => ExprKind.size kind + 1

def ExprKind.size : ExprKind → Nat
  | .name _ | .int _ _ | .str _ _ => 0
  | .sizeofExpr e | .access e _ _ | .deref e | .addrOf e | .unary _ e | .not e => e.size
  | .sizeofType t => t.size
  | .call f args => f.size + Expr.listSize args
  | .index a b | .binary _ a b | .cond _ a b | .assign _ a b => a.size + b.size
  | .cast e t _ => e.size + t.size
  | .ternary c t e => c.size + t.size + e.size
  | .comma es | .arrayInit es => Expr.listSize es
  | .recordInit _ fs => FieldInit.listSize fs

def Expr.listSize : List Expr → Nat
  | [] => 0
  | e :: es => e.size + Expr.listSize es

def FieldInit.listSize : List FieldInit → Nat
  | [] => 0
  | .mk _ v _ :: fs => v.size + FieldInit.listSize fs

/-- The nodes of a type: itself, its parts, array sizes and `typeof` operands. -/
def TypeExpr.size : TypeExpr → Nat
  | .mk _ _ _ kind => TypeExprKind.size kind + 1

def TypeExprKind.size : TypeExprKind → Nat
  | .void | .int _ | .ref _ => 0
  | .array inner none => inner.size
  | .array inner (some size) => inner.size + size.size
  | .func ret params _ => ret.size + TypeExpr.listSize params
  | .record _ members => MemberDecl.listSize members
  | .typeOf e => e.size

def TypeExpr.listSize : List TypeExpr → Nat
  | [] => 0
  | t :: ts => t.size + TypeExpr.listSize ts

def MemberDecl.listSize : List MemberDecl → Nat
  | [] => 0
  | .mk _ t _ _ :: ms => t.size + MemberDecl.listSize ms

end

mutual

/-- The nodes of a statement: itself and those inside it, declarations included. -/
def Stmt.size : Stmt → Nat
  | .mk _ _ kind => StmtKind.size kind + 1

def StmtKind.size : StmtKind → Nat
  | .empty | .jump _ _ => 0
  | .decl d => d.size
  | .block stmts => Stmt.listSize stmts
  | .expr e => e.size
  | .ret value => (value.map Expr.size).getD 0
  | .branch _ c t elseS => c.size + t.size + Stmt.optSize elseS
  | .loop _ init cond step body elseS =>
    (init.map Expr.size).getD 0 + (cond.map Expr.size).getD 0 + (step.map Expr.size).getD 0 +
      body.size + Stmt.optSize elseS

def Stmt.optSize : Option Stmt → Nat
  | none => 0
  | some s => s.size

def Stmt.listSize : List Stmt → Nat
  | [] => 0
  | s :: ss => s.size + Stmt.listSize ss

/-- The nodes of a declaration: itself, its type's, and its value's or body's. -/
def Decl.size : Decl → Nat
  | .mk _ _ _ _ ty _ _ kind => ty.size + DeclKind.size kind + 1

def DeclKind.size : DeclKind → Nat
  | .var value _ => (value.map Expr.size).getD 0
  | .const v _ => v.size
  | .func _ body _ _ => Stmt.optSize body
  | .type => 0

end

/-- The nodes of a module. -/
def Module.size (m : Module) : Nat := (m.decls.map Decl.size).sum

/-- The nodes of the type of a module-level type declaration; none for another declaration. -/
def Decl.typeSize (d : Decl) : Nat :=
  match d.kind with
  | .type => d.ty.size
  | _ => 0

theorem Expr.size_eq (e : Expr) : e.size = e.kind.size + 1 := by
  obtain ⟨id, span, kind⟩ := e
  rfl

theorem TypeExpr.size_eq (t : TypeExpr) : t.size = t.kind.size + 1 := by
  obtain ⟨id, span, volatile, kind⟩ := t
  rfl

theorem Stmt.size_eq (s : Stmt) : s.size = s.kind.size + 1 := by
  obtain ⟨id, span, kind⟩ := s
  rfl

theorem Decl.size_eq (d : Decl) : d.size = d.ty.size + d.kind.size + 1 := by
  obtain ⟨id, name, nameSpan, span, ty, isDeclare, description, kind⟩ := d
  rfl

theorem Expr.size_pos (e : Expr) : 0 < e.size := by
  rw [Expr.size_eq]
  omega

theorem TypeExpr.size_pos (t : TypeExpr) : 0 < t.size := by
  rw [TypeExpr.size_eq]
  omega

/-- The values of a struct or union initializer have the nodes of its fields. -/
theorem Expr.listSize_values (fs : List FieldInit) :
    Expr.listSize (fs.map (·.value)) = FieldInit.listSize fs := by
  induction fs with
  | nil => rfl
  | cons f fs ih =>
    obtain ⟨name, value, span⟩ := f
    rw [List.map_cons, Expr.listSize, ih]
    rfl

/-- A declaration has at least the nodes of its type, and all of them if it declares a type. -/
theorem Decl.typeSize_le (d : Decl) : d.typeSize ≤ d.size := by
  rw [Decl.size_eq, Decl.typeSize]
  split <;> omega

/-- A sum over a list bounds what its terms bound, with room left for what one term leaves. -/
theorem sum_map_add_le {ι : Type} {l : List ι} {f g : ι → Nat} {a : ι} {c : Nat} (ha : a ∈ l)
    (hfg : ∀ x ∈ l, f x ≤ g x) (hc : f a + c ≤ g a) : (l.map f).sum + c ≤ (l.map g).sum := by
  induction l with
  | nil => cases ha
  | cons x l ih =>
    simp only [List.map_cons, List.sum_cons]
    rcases List.mem_cons.mp ha with rfl | ha
    · have hrest : (l.map f).sum ≤ (l.map g).sum :=
        List.sum_le_sum fun y hy => hfg y (List.mem_cons_of_mem _ hy)
      omega
    · have hx := hfg x List.mem_cons_self
      have hrest := ih ha fun y hy => hfg y (List.mem_cons_of_mem _ hy)
      omega

/-- The types of a module's type declarations and any other of its declarations together have
no more nodes than the module. -/
theorem Module.typeSize_add_le (m : Module) {d : Decl} (hd : d ∈ m.decls) (hk : d.typeSize = 0) :
    (m.decls.map Decl.typeSize).sum + d.size ≤ m.size :=
  sum_map_add_le hd (fun x _ => x.typeSize_le) (by omega)

end SolarFront
