import EcmaEval.Program.Operator

/-!
# Syntax trees

The trees of programs.  Expressions, statements, patterns, functions and classes contain each
other, so their types are defined together.

An optional chain `base?.tail` is kept as its base and a tail that is built on the identifier with
the empty name.

## Main definitions

* `Expression`, `Statement`, `Pattern`: the trees of phrases
* `FunctionNode`, `ClassNode`: functions and classes
* `Program`: the statements of a text
* `FunctionNode.expectedArguments`: the parameters before the first that has a default or takes
  the rest
-/

namespace EcmaEval

/-- A value written in the program text. -/
inductive Literal where
  | null
  | boolean (value : Bool)
  | number (value : Float)
  | string (value : String)
  | bigint (digits : String)
  deriving Inhabited

mutual

/-- An expression. -/
inductive Expression where
  | literal (value : Literal)
  | regExp (pattern flags : String)
  | identifier (name : String)
  | this
  | super
  | newTarget
  | array (elements : List (Option Expression))
  | object (members : List ObjectMember)
  | function (node : FunctionNode)
  | arrow (node : FunctionNode)
  | «class» (node : ClassNode)
  | unary (op : UnaryOperator) (operand : Expression)
  | binary (op : BinaryOperator) (left right : Expression)
  | logical (op : LogicalOperator) (left right : Expression)
  | update (op : UpdateOperator) (before : Bool) (target : Expression)
  | assign (op : AssignmentOperator) (target value : Expression)
  | conditional (test consequent alternate : Expression)
  | call (callee : Expression) (arguments : List Expression)
  | new (callee : Expression) (arguments : List Expression)
  | member (object : Expression) (key : MemberKey)
  | optionalChain (base tail : Expression)
  | spread (operand : Expression)
  | template (texts : List (Option String)) (substitutions : List Expression)
  | taggedTemplate (tag : Expression) (texts : List (Option String))
      (substitutions : List Expression)
  | await (operand : Expression)
  | yield (operand : Option Expression) (delegate : Bool)
  | sequence (parts : List Expression)

/-- The key behind an object in a member access. -/
inductive MemberKey where
  | name (name : String)
  | computed (key : Expression)

/-- The key of a property in an object literal, a class or a pattern. -/
inductive PropertyKey where
  | identifier (name : String)
  | string (value : String)
  | number (value : Float)
  | computed (key : Expression)

/-- A property of an object literal. -/
structure ObjectMember where
  kind : MemberKind
  key : PropertyKey
  value : Expression
  /-- The value is the identifier that is also the key. -/
  shorthand : Bool

/-- A binding target. -/
inductive Pattern where
  | identifier (name : String)
  | withDefault (target : Pattern) (value : Expression)
  | rest (target : Pattern)
  | array (elements : List (Option Pattern))
  | object (members : List PatternMember)

/-- A property of an object pattern. -/
structure PatternMember where
  key : PropertyKey
  target : Pattern

/-- A function of any form: a declaration, an expression, an arrow, a method or a constructor. -/
structure FunctionNode where
  name : Option String
  params : List Pattern
  body : FunctionBody
  isArrow : Bool
  isAsync : Bool
  isGenerator : Bool

/-- The body of a function; only an arrow may have an expression for it. -/
inductive FunctionBody where
  | block (statements : List Statement)
  | expression (result : Expression)

/-- A class. -/
structure ClassNode where
  name : Option String
  heritage : Option Expression
  body : List ClassElement

/-- A part of a class body. -/
inductive ClassElement where
  | method (kind : MethodKind) (isStatic : Bool) (key : PropertyKey) (node : FunctionNode)
  | field (isStatic : Bool) (key : PropertyKey) (value : Option Expression)
  | staticBlock (statements : List Statement)

/-- A statement or declaration. -/
inductive Statement where
  | empty
  | debugger
  | expression (value : Expression)
  | block (body : List Statement)
  | declaration (kind : DeclarationKind) (declarators : List Declarator)
  | «if» (test : Expression) (consequent : Statement) (alternate : Option Statement)
  | while (test : Expression) (body : Statement)
  | doWhile (body : Statement) (test : Expression)
  | for (init : Option ForInit) (test update : Option Expression) (body : Statement)
  | forIn (head : ForHead) (object : Expression) (body : Statement)
  | forOf (head : ForHead) (iterable : Expression) (body : Statement)
  | return (value : Option Expression)
  | break (label : Option String)
  | continue (label : Option String)
  | throw (value : Expression)
  | try (body : List Statement) (handler : Option CatchClause)
      (finalizer : Option (List Statement))
  | switch (discriminant : Expression) (cases : List SwitchCase)
  | labeled (label : String) (body : Statement)
  | «with» (object : Expression) (body : Statement)
  | function (node : FunctionNode)
  | «class» (node : ClassNode)

/-- One variable of a declaration. -/
structure Declarator where
  target : Pattern
  init : Option Expression

/-- The first part of a loop head with three parts. -/
inductive ForInit where
  | declaration (kind : DeclarationKind) (declarators : List Declarator)
  | expression (value : Expression)

/-- What a loop over keys or elements binds. -/
inductive ForHead where
  | declaration (kind : DeclarationKind) (target : Pattern)
  | target (target : Expression)

/-- The handler of a try statement. -/
structure CatchClause where
  param : Option Pattern
  body : List Statement

/-- A case of a switch; the default has no test. -/
structure SwitchCase where
  test : Option Expression
  body : List Statement

end

/-- A program. -/
structure Program where
  body : List Statement

instance : Inhabited Expression := ⟨.this⟩
instance : Inhabited Statement := ⟨.empty⟩

/-- The name under which diagnostics report an expression. -/
def Expression.kindName : Expression → String
  | .literal _ => "Literal"
  | .regExp .. => "RegExpLiteral"
  | .identifier _ => "Identifier"
  | .this => "ThisExpression"
  | .super => "Super"
  | .newTarget => "MetaProperty"
  | .array _ => "ArrayExpression"
  | .object _ => "ObjectExpression"
  | .function _ => "FunctionExpression"
  | .arrow _ => "ArrowFunctionExpression"
  | .class _ => "ClassExpression"
  | .unary .. => "UnaryExpression"
  | .binary .. => "BinaryExpression"
  | .logical .. => "LogicalExpression"
  | .update .. => "UpdateExpression"
  | .assign .. => "AssignmentExpression"
  | .conditional .. => "ConditionalExpression"
  | .call .. => "CallExpression"
  | .new .. => "NewExpression"
  | .member .. => "MemberExpression"
  | .optionalChain .. => "ChainExpression"
  | .spread _ => "SpreadElement"
  | .template .. => "TemplateLiteral"
  | .taggedTemplate .. => "TaggedTemplateExpression"
  | .await _ => "AwaitExpression"
  | .yield .. => "YieldExpression"
  | .sequence _ => "SequenceExpression"

/-- The name under which diagnostics report a statement. -/
def Statement.kindName : Statement → String
  | .empty => "EmptyStatement"
  | .debugger => "DebuggerStatement"
  | .expression _ => "ExpressionStatement"
  | .block _ => "BlockStatement"
  | .declaration .. => "VariableDeclaration"
  | .if .. => "IfStatement"
  | .while .. => "WhileStatement"
  | .doWhile .. => "DoWhileStatement"
  | .for .. => "ForStatement"
  | .forIn .. => "ForInStatement"
  | .forOf .. => "ForOfStatement"
  | .return _ => "ReturnStatement"
  | .break _ => "BreakStatement"
  | .continue _ => "ContinueStatement"
  | .throw _ => "ThrowStatement"
  | .try .. => "TryStatement"
  | .switch .. => "SwitchStatement"
  | .labeled .. => "LabeledStatement"
  | .with .. => "WithStatement"
  | .function _ => "FunctionDeclaration"
  | .class _ => "ClassDeclaration"

/-- The name under which diagnostics report a pattern. -/
def Pattern.kindName : Pattern → String
  | .identifier _ => "Identifier"
  | .withDefault .. => "AssignmentPattern"
  | .rest _ => "RestElement"
  | .array _ => "ArrayPattern"
  | .object _ => "ObjectPattern"

/-- The pattern is a plain name. -/
def Pattern.isIdentifier : Pattern → Bool
  | .identifier _ => true
  | _ => false

/-- The number of parameters before the first one with a default or the rest. -/
def FunctionNode.expectedArguments (f : FunctionNode) : Nat :=
  (f.params.takeWhile Pattern.isIdentifier).length

/-- The constructor of a class, if it has one. -/
def ClassNode.constructor? (c : ClassNode) : Option FunctionNode :=
  c.body.findSome? fun
    | .method .constructor _ _ node => some node
    | _ => none

end EcmaEval
