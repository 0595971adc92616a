import ScriptLang.Proofs.Program.Conventions

/-!
# The nodes of a program

All expressions and statements of a program, those in the bodies of functions included. A tree obeys
exactly if each of its nodes is allowed, so conventions can be compared, and a tree obeys those
that allow nothing but its own nodes.
-/

namespace ScriptLang

/-- A node of a tree. Of a statement it is known whether a loop is around it. -/
inductive Node where
  | expression (e : Expression)
  | statement (inLoop : Bool) (s : Statement)

mutual

/-- An expression and all in it. -/
def Expression.nodes : Expression → List Node
  | .number value => [.expression (.number value)]
  | .string value => [.expression (.string value)]
  | .boolean value => [.expression (.boolean value)]
  | .identifier name => [.expression (.identifier name)]
  | .assign target value => .expression (.assign target value) :: (target.nodes ++ value.nodes)
  | .binary left operator right =>
    .expression (.binary left operator right) :: (left.nodes ++ right.nodes)
  | .unary operator operand => .expression (.unary operator operand) :: operand.nodes
  | .call callee arguments =>
    .expression (.call callee arguments) :: (callee.nodes ++ Expression.allNodes arguments)
  | .list elements => .expression (.list elements) :: Expression.allNodes elements
  | .function parameters body =>
    .expression (.function parameters body) :: Statement.allNodes false body
  | .member target name => .expression (.member target name) :: target.nodes
  | .index target place => .expression (.index target place) :: (target.nodes ++ place.nodes)
  | .unknown => [.expression .unknown]

/-- Several expressions and all in them. -/
def Expression.allNodes : List Expression → List Node
  | [] => []
  | e :: rest => e.nodes ++ Expression.allNodes rest

/-- A statement and all in it. -/
def Statement.nodes (inLoop : Bool) : Statement → List Node
  | .mk line form => .statement inLoop (.mk line form) :: form.nodes inLoop

/-- All that is in a statement. -/
def Form.nodes (inLoop : Bool) : Form → List Node
  | .declare _ value => value.nodes
  | .define _ _ body => Statement.allNodes false body
  | .branch condition consequent none =>
    condition.nodes ++ Statement.allNodes inLoop consequent
  | .branch condition consequent (some alternative) =>
    condition.nodes ++ (Statement.allNodes inLoop consequent ++
      Statement.allNodes inLoop alternative)
  | .loop body _ none => Statement.allNodes true body
  | .loop body _ (some iterable) => iterable.nodes ++ Statement.allNodes true body
  | .returns none => []
  | .returns (some value) => value.nodes
  | .breakLoop | .continueLoop | .unknown => []
  | .evaluate e => e.nodes

/-- The statements of a block and all in them. -/
def Statement.allNodes (inLoop : Bool) : List Statement → List Node
  | [] => []
  | s :: rest => s.nodes inLoop ++ Statement.allNodes inLoop rest

end

/-- A node is allowed as it stands. -/
def Conventions.Allows (c : Conventions) : Node → Prop
  | .expression e => c.expression e
  | .statement inLoop s => c.statement inLoop s

mutual

/-- An expression obeys if and only if its nodes are allowed. -/
lemma Expression.obeys_iff (c : Conventions) :
    (e : Expression) → (e.Obeys c ↔ ∀ node ∈ e.nodes, c.Allows node)
  | .number _ | .string _ | .boolean _ | .identifier _ | .unknown => by
    simp [Expression.Obeys, Expression.nodes, Conventions.Allows]
  | .assign target value | .binary target _ value | .index target value => by
    simp [Expression.Obeys, Expression.nodes, Conventions.Allows, target.obeys_iff c,
      value.obeys_iff c, or_imp, forall_and]
  | .unary _ operand | .member operand _ => by
    simp [Expression.Obeys, Expression.nodes, Conventions.Allows, operand.obeys_iff c]
  | .call callee arguments => by
    simp [Expression.Obeys, Expression.nodes, Conventions.Allows, callee.obeys_iff c,
      Expression.allObey_iff c arguments, or_imp, forall_and]
  | .list elements => by
    simp [Expression.Obeys, Expression.nodes, Conventions.Allows,
      Expression.allObey_iff c elements]
  | .function _ body => by
    simp [Expression.Obeys, Expression.nodes, Conventions.Allows,
      Statement.allObey_iff c false body]

/-- Expressions obey if and only if their nodes are allowed. -/
lemma Expression.allObey_iff (c : Conventions) :
    (es : List Expression) →
      (Expression.AllObey c es ↔ ∀ node ∈ Expression.allNodes es, c.Allows node)
  | [] => by simp [Expression.AllObey, Expression.allNodes]
  | e :: rest => by
    simp [Expression.AllObey, Expression.allNodes, e.obeys_iff c, Expression.allObey_iff c rest,
      or_imp, forall_and]

/-- A statement obeys if and only if its nodes are allowed. -/
lemma Statement.obeys_iff (c : Conventions) (inLoop : Bool) :
    (s : Statement) → (s.Obeys c inLoop ↔ ∀ node ∈ s.nodes inLoop, c.Allows node)
  | .mk _ form => by
    simp [Statement.Obeys, Statement.nodes, Conventions.Allows, form.obeys_iff c inLoop]

/-- A form obeys if and only if its nodes are allowed. -/
lemma Form.obeys_iff (c : Conventions) (inLoop : Bool) :
    (form : Form) → (form.Obeys c inLoop ↔ ∀ node ∈ form.nodes inLoop, c.Allows node)
  | .declare _ value | .returns (some value) | .evaluate value => by
    simp [Form.Obeys, Form.nodes, value.obeys_iff c]
  | .define _ _ body => by simp [Form.Obeys, Form.nodes, Statement.allObey_iff c false body]
  | .branch condition consequent none => by
    simp [Form.Obeys, Form.nodes, condition.obeys_iff c, Statement.allObey_iff c inLoop consequent,
      or_imp, forall_and]
  | .branch condition consequent (some alternative) => by
    simp [Form.Obeys, Form.nodes, condition.obeys_iff c, Statement.allObey_iff c inLoop consequent,
      Statement.allObey_iff c inLoop alternative, or_imp, forall_and]
  | .loop body _ none => by simp [Form.Obeys, Form.nodes, Statement.allObey_iff c true body]
  | .loop body _ (some iterable) => by
    simp [Form.Obeys, Form.nodes, iterable.obeys_iff c, Statement.allObey_iff c true body, or_imp,
      forall_and]
  | .returns none | .breakLoop | .continueLoop | .unknown => by simp [Form.Obeys, Form.nodes]

/-- Statements obey if and only if their nodes are allowed. -/
lemma Statement.allObey_iff (c : Conventions) (inLoop : Bool) :
    (b : List Statement) →
      (Statement.AllObey c inLoop b ↔ ∀ node ∈ Statement.allNodes inLoop b, c.Allows node)
  | [] => by simp [Statement.AllObey, Statement.allNodes]
  | s :: rest => by
    simp [Statement.AllObey, Statement.allNodes, s.obeys_iff c inLoop,
      Statement.allObey_iff c inLoop rest, or_imp, forall_and]

end

namespace Conventions

/-- Only these nodes are allowed. -/
def among (nodes : List Node) : Conventions where
  expression e := .expression e ∈ nodes
  statement inLoop s := .statement inLoop s ∈ nodes

/-- To be among nodes is a convention that allows just these. -/
lemma allows_among_iff {nodes : List Node} {node : Node} :
    (among nodes).Allows node ↔ node ∈ nodes := by
  cases node with
  | expression e => rfl
  | statement inLoop s => rfl

end Conventions

/-- A block obeys the convention that allows its own nodes. -/
lemma Statement.allObey_among (inLoop : Bool) (b : List Statement) :
    Statement.AllObey (.among (Statement.allNodes inLoop b)) inLoop b :=
  (Statement.allObey_iff _ inLoop b).2 fun _ mem => Conventions.allows_among_iff.2 mem

/-- A statement whose nodes are among some that a convention allows obeys it. -/
lemma Statement.Obeys.of_among {c : Conventions} {nodes : List Node} {inLoop : Bool}
    {s : Statement} (h : s.Obeys (.among nodes) inLoop) (allowed : ∀ node ∈ nodes, c.Allows node) :
    s.Obeys c inLoop :=
  (s.obeys_iff c inLoop).2 fun node mem =>
    allowed node (Conventions.allows_among_iff.1 ((s.obeys_iff _ inLoop).1 h node mem))

/-- The statements of a block are among its nodes. -/
lemma Statement.mem_allNodes {inLoop : Bool} {b : List Statement} {s : Statement} (h : s ∈ b) :
    .statement inLoop s ∈ Statement.allNodes inLoop b := by
  induction b with
  | nil => cases h
  | cons first rest ih =>
    rcases List.mem_cons.1 h with rfl | mem
    · cases s
      exact List.mem_append_left _ List.mem_cons_self
    · exact List.mem_append_right _ (ih mem)

end ScriptLang
