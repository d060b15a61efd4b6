import FormLang.Data.Atom
import FormLang.Data.Table

/-!
Contract: expressions, the trees that programs and values are made of.

An expression has a head atom, a tail of expressions and a map of properties. Two
head symbols are tags: `list` marks a sequence, and `lambda` above a list of bare
symbols and a body marks a function value.

Owns: the tree type with decidable equality, the constructors and views of tagged
trees, the property map, and the agreement of two trees.
Does not own: text, and what a tree evaluates to.
-/

set_option autoImplicit false

namespace FormLang

/-- A tree of atoms: a head, a tail in order, and properties by key, in the order in
which the keys were first set. -/
inductive Expr where
  | node (head : Atom) (tail : List Expr) (properties : List (String × Expr))

namespace Expr

mutual

def decEq : (left right : Expr) → Decidable (left = right)
  | .node head tail properties, .node head' tail' properties' =>
      if heads : head = head' then
        match decEqTail tail tail', decEqProperties properties properties' with
        | isTrue tails, isTrue propertyMaps => isTrue (by rw [heads, tails, propertyMaps])
        | isFalse different, _ => isFalse (fun equal => by cases equal; exact different rfl)
        | _, isFalse different => isFalse (fun equal => by cases equal; exact different rfl)
      else
        isFalse (fun equal => by cases equal; exact heads rfl)

def decEqTail : (left right : List Expr) → Decidable (left = right)
  | [], [] => isTrue rfl
  | [], _ :: _ => isFalse (by simp)
  | _ :: _, [] => isFalse (by simp)
  | first :: rest, first' :: rest' =>
      match decEq first first', decEqTail rest rest' with
      | isTrue firsts, isTrue rests => isTrue (by rw [firsts, rests])
      | isFalse different, _ => isFalse (fun equal => by cases equal; exact different rfl)
      | _, isFalse different => isFalse (fun equal => by cases equal; exact different rfl)

def decEqProperties : (left right : List (String × Expr)) → Decidable (left = right)
  | [], [] => isTrue rfl
  | [], _ :: _ => isFalse (by simp)
  | _ :: _, [] => isFalse (by simp)
  | (key, value) :: rest, (key', value') :: rest' =>
      if keys : key = key' then
        match decEq value value', decEqProperties rest rest' with
        | isTrue values, isTrue rests => isTrue (by rw [keys, values, rests])
        | isFalse different, _ => isFalse (fun equal => by cases equal; exact different rfl)
        | _, isFalse different => isFalse (fun equal => by cases equal; exact different rfl)
      else
        isFalse (fun equal => by cases equal; exact keys rfl)

end

instance : DecidableEq Expr := decEq

/-- The head symbol that marks a sequence. -/
def listTag : String := "list"

/-- The head symbol that marks a function value or the form that makes one. -/
def lambdaTag : String := "lambda"

/-- A node without properties. -/
def form (head : Atom) (tail : List Expr) : Expr := .node head tail []

/-- A node with neither tail nor properties. -/
def leaf (head : Atom) : Expr := .node head [] []

instance : Inhabited Expr := ⟨leaf .none⟩

def ofNumber (value : Float) : Expr := leaf (.ofNumber value)

def ofComplex (value : Complex) : Expr := leaf (.ofComplex value)

def list (items : List Expr) : Expr := form (.symbol listTag) items

def lambda (parameters : List String) (body : Expr) : Expr :=
  form (.symbol lambdaTag) [list (parameters.map fun name => leaf (.symbol name)), body]

def head : Expr → Atom
  | .node head _ _ => head

def tail : Expr → List Expr
  | .node _ tail _ => tail

def properties : Expr → Table Expr
  | .node _ _ properties => properties

def push (expression child : Expr) : Expr :=
  .node expression.head (expression.tail ++ [child]) expression.properties

def isLeaf (expression : Expr) : Bool :=
  expression.tail.isEmpty

/-- The name of a symbol without tail. -/
def bareSymbol? (expression : Expr) : Option String :=
  if expression.isLeaf then expression.head.symbol? else none

def isList (expression : Expr) : Bool :=
  expression.head.symbol? == some listTag

/-- Parameters and body of a function value: a node tagged `lambda` over exactly a
sequence of bare symbols and a body. -/
def lambdaParts? (expression : Expr) : Option (List String × Expr) :=
  if expression.head.symbol? = some lambdaTag then
    match expression.tail with
    | [parameters, body] =>
        if parameters.isList then
          (parameters.tail.mapM bareSymbol?).map fun names => (names, body)
        else
          none
    | _ => none
  else
    none

def isLambda (expression : Expr) : Bool :=
  expression.lambdaParts?.isSome

def property? (expression : Expr) (key : String) : Option Expr :=
  expression.properties.lookup key

/-- The property of a key, or the leaf of nothing. -/
def property (expression : Expr) (key : String) : Expr :=
  (expression.property? key).getD (leaf .none)

def setProperty (expression : Expr) (key : String) (value : Expr) : Expr :=
  .node expression.head expression.tail (Table.set key value expression.properties)

mutual

/-- Two trees agree if they have one shape and their heads agree at every node.
Properties do not count. -/
def agrees : Expr → Expr → Bool
  | .node head tail _, .node head' tail' _ => head.agrees head' && tailsAgree tail tail'

def tailsAgree : List Expr → List Expr → Bool
  | [], [] => true
  | first :: rest, first' :: rest' => first.agrees first' && tailsAgree rest rest'
  | _, _ => false

end

mutual

/-- The height of a tree, where properties count as children. -/
def depth : Expr → Nat
  | .node _ tail properties => 1 + max (depthOfTail tail) (depthOfProperties properties)

def depthOfTail : List Expr → Nat
  | [] => 0
  | first :: rest => max first.depth (depthOfTail rest)

def depthOfProperties : List (String × Expr) → Nat
  | [] => 0
  | (_, value) :: rest => max value.depth (depthOfProperties rest)

end

end Expr

end FormLang
