import FormLang.Data.Expr
import FormLang.Data.Table
import FormLang.Failure

/-!
Contract: what names are bound to.

An environment is a chain of scopes: the current one, that of the caller, that of
the caller's caller, and so on to the root, which binds the constants and the
procedures. The nearest scope that binds a name decides what it stands for. Every
write goes to the current scope, so a call leaves its caller's scopes as they were.

Owns: looking up, defining, binding of parameters, setting a property of a bound
value, and the frame of a call.
-/

set_option autoImplicit false

namespace FormLang

inductive Binding where
  | value (expression : Expr)
  | procedure (builtIn : Procedure)
deriving DecidableEq

abbrev Scope := Table Binding

/-- A chain of scopes, the current one first. -/
structure Environment where
  current : Scope
  callers : List Scope
deriving DecidableEq

namespace Environment

/-- The ratio of a circle's circumference to its diameter, rounded to nearest. -/
def pi : Float := Float.ofBits 0x400921FB54442D18

/-- The base of the natural logarithm, rounded to nearest. -/
def e : Float := Float.ofBits 0x4005BF0A8B145769

/-- The constants that every root scope binds. -/
def constants : Table Expr :=
  [("pi", .ofNumber pi), ("e", .ofNumber e), ("I", .ofComplex .unit)]

/-- The scope that binds the constants and the procedures and nothing else. -/
def rootScope : Scope :=
  constants.map (fun (name, value) => (name, .value value)) ++
    Procedure.all.map (fun builtIn => (builtIn.name, .procedure builtIn))

def initial : Environment := ⟨rootScope, []⟩

/-- The scopes of the chain, the nearest first. -/
def scopes (environment : Environment) : List Scope :=
  environment.current :: environment.callers

/-- What a name stands for: the binding in the nearest scope that has one. -/
def lookup (environment : Environment) (name : String) : Option Binding :=
  environment.scopes.findSome? (List.lookup name)

def value? (environment : Environment) (name : String) : Option Expr :=
  match environment.lookup name with
  | some (.value expression) => some expression
  | _ => none

def procedure? (environment : Environment) (name : String) : Option Procedure :=
  match environment.lookup name with
  | some (.procedure builtIn) => some builtIn
  | _ => none

def contains (environment : Environment) (name : String) : Bool :=
  (environment.lookup name).isSome

/-- Bind a name to a value in the current scope, whatever it stood for. -/
def bind (environment : Environment) (name : String) (value : Expr) : Environment :=
  { environment with current := Table.set name (.value value) environment.current }

/-- Bind a new name in the current scope. A name that stands for something already,
in this scope or a caller's, is refused. -/
def define (environment : Environment) (name : String) (value : Expr) :
    Except Failure Environment :=
  if environment.contains name then .error (.redefinedSymbol name)
  else .ok (environment.bind name value)

/-- Set a property of the value that a name is bound to, and give the value with the
property. The value of a caller's scope is copied, so only the current scope changes. -/
def annotate? (environment : Environment) (name key : String) (value : Expr) :
    Option (Expr × Environment) :=
  (environment.value? name).map fun bound =>
    let annotated := bound.setProperty key value
    (annotated, environment.bind name annotated)

/-- A frame on top of the chain, with an empty scope of its own. -/
def frame (environment : Environment) : Environment :=
  ⟨[], environment.scopes⟩

/-- The frame of a call, with every parameter bound to its operand in order. -/
def enter (environment : Environment) (parameters : List String) (operands : List Expr) :
    Environment :=
  (parameters.zip operands).foldl (fun inner (name, operand) => inner.bind name operand)
    environment.frame

end Environment

end FormLang
