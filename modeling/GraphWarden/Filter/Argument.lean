import GraphWarden.Filter.Combine

/-!
# Filter arguments

Rules and queries write a filter as an object.  Each key is a condition, and the
object asks for all of them in key order: `and`, `or` and `not` join further
objects, `has` asks for fields, `id` for one of the listed ids, and every other
key is a field whose operators are compared one by one.  An object without any
condition is no filter at all, and inside `and`, `or` and `not` it is passed over.
-/

namespace GraphWarden.Filter

/-- Why a value is no filter. -/
inductive Flaw where
  | notObject (found : Value)
  | groupNotObjectOrList (key : String) (found : Value)
  | hasNotNames (found : Value)
  | hasNotName (found : Value)
  | idNotList (found : Value)
  | idNotTexts (found : Value)
  | fieldNotObject (field : String) (found : Value)
  | noOperator (field : String)
  | unknownOperator (operator field : String)
  | inNotList (field : String)

/-- The wording of a flaw. -/
def Flaw.message : Flaw → String
  | .notObject v => "filter must be an object, found " ++ v.display
  | .groupNotObjectOrList key v =>
    "'" ++ key ++ "' expects an object or list, found " ++ v.display
  | .hasNotNames v => "'has' expects field names, found " ++ v.display
  | .hasNotName v => "'has' expects a field name, found " ++ v.display
  | .idNotList v => "'id' expects a list of ids, found " ++ v.display
  | .idNotTexts v => "'id' expects literal string ids, found " ++ v.display
  | .fieldNotObject field v =>
    "field '" ++ field ++ "' expects an operator object, found " ++ v.display
  | .noOperator field => "field '" ++ field ++ "' has no operator"
  | .unknownOperator operator field =>
    "unsupported operator '" ++ operator ++ "' on field '" ++ field ++ "'"
  | .inNotList field => "'in' on field '" ++ field ++ "' expects a list"

/-- What a key of a filter object asks for. -/
inductive Key where
  | all
  | any
  | not
  | has
  | id
  | field
deriving DecidableEq, Repr

/-- The reading of a key. -/
def Key.ofName (name : String) : Key :=
  if name = "and" then all
  else if name = "or" then any
  else if name = "not" then not
  else if name = "has" then has
  else if name = "id" then id
  else field

/-- The filters that a list of field names asks for. -/
def presences : List Value → Except Flaw (List Filter)
  | [] => .ok []
  | v :: vs =>
    match v.asText with
    | none => .error (.hasNotNames v)
    | some name => (presences vs).map (.has name :: ·)

/-- The filters that `has` asks for. -/
def presence : Value → Except Flaw (List Filter)
  | .enum name | .text name => .ok [.has name]
  | .list items => presences items
  | v => .error (.hasNotName v)

/-- The ids that a list spells out. -/
def idTexts : List Value → Except Flaw (List String)
  | [] => .ok []
  | v :: vs =>
    match v.asText with
    | none => .error (.idNotTexts v)
    | some i => (idTexts vs).map (i :: ·)

/-- The filters that `id` asks for. -/
def identity : Value → Except Flaw (List Filter)
  | .list items => (idTexts items).map fun ids => [.ids ids]
  | v => .error (.idNotList v)

/-- Whether an operator takes this operand: a choice is a list, or a variable that
stands for one. -/
def takesOperand (op : Comparison) : Value → Bool
  | .list _ | .variable _ => true
  | _ => op ≠ .oneOf

/-- The comparisons of a field with the operands of its operators. -/
def comparisonsOf (field : String) : List (String × Value) → Except Flaw (List Filter)
  | [] => .ok []
  | (operator, operand) :: rest =>
    match Comparison.ofName? operator with
    | none => .error (.unknownOperator operator field)
    | some op =>
      if takesOperand op operand then
        (comparisonsOf field rest).map (.compare field op operand :: ·)
      else .error (.inNotList field)

/-- The filters that the operator object of a field asks for. -/
def comparisons (field : String) : Value → Except Flaw (List Filter)
  | .object [] => .error (.noOperator field)
  | .object entries => comparisonsOf field entries
  | v => .error (.fieldNotObject field v)

/-- The filter that a group of children makes; none when there are no children. -/
def group (join : List Filter → Filter) : List Filter → List Filter
  | [] => []
  | children => [join children]

mutual

/-- The filters of a joining key's children: one object, or a list of them. -/
def children (key : String) : Value → Except Flaw (List Filter)
  | .list items => childrenOf items
  | .object entries => (conditionsOf entries).map fun parts => (conjunction? parts).toList
  | v => .error (.groupNotObjectOrList key v)

/-- The filters of the objects of a list. -/
def childrenOf : List Value → Except Flaw (List Filter)
  | [] => .ok []
  | v :: vs =>
    match v with
    | .object entries => do
      let parts ← conditionsOf entries
      let others ← childrenOf vs
      .ok ((conjunction? parts).toList ++ others)
    | v => .error (.notObject v)

/-- The filters that the keys of an object ask for. -/
def conditionsOf : List (String × Value) → Except Flaw (List Filter)
  | [] => .ok []
  | (key, arg) :: rest => do
    let here ← match Key.ofName key with
      | .all => (children key arg).map (group andAll)
      | .any => (children key arg).map (group orAll)
      | .not =>
        match arg with
        | .object entries =>
          (conditionsOf entries).map fun parts => (conjunction? parts).toList.map .not
        | v => .error (.notObject v)
      | .has => presence arg
      | .id => identity arg
      | .field => comparisons key arg
    let others ← conditionsOf rest
    .ok (here ++ others)

end

/-- The filter that an argument writes; none when it sets no condition. -/
def ofArgument : Value → Except Flaw (Option Filter)
  | .object entries => (conditionsOf entries).map conjunction?
  | v => .error (.notObject v)

end GraphWarden.Filter
