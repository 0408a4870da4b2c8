import GraphWarden.Rule.Basic
import GraphWarden.Filter.Argument
import GraphWarden.Graphql.Query
import GraphWarden.Text.Blank

/-!
# The text of a rule

A rule is written as a role condition, a dollar sign and a claim's name with one
operator, all in braces; or as a query document with one query in it that selects
one field `query<Type>`.  What follows the claim's name is read as an argument of
the query language.

Rules are combined in declarations, whose leaves are rule texts.
-/

namespace GraphWarden.Rule

/-- Why a text or a declaration is no rule. -/
inductive Flaw where
  | empty
  | notBraced
  | noClaimName
  | noColon (claim : String)
  | badLiteral
  | notOperatorObject
  | notOneOperator
  | variableInLiteral
  | inNotList (found : Value)
  | patternNotText
  | badPattern (cause : Pattern.Cause)
  | unknownOperator (operator : String)
  | badQuery
  | notOneDefinition
  | notQuery
  | definesFragment
  | notOneRootField
  | notQueryField (field : String)
  | unknownArgument (argument field : String)
  | badFilter (flaw : Filter.Flaw)
  | usesFragment
  | noRules
  | undeclaredVariable (name : String)

/-- The wording of a flaw. -/
def Flaw.message : Flaw → String
  | .empty => "empty rule"
  | .notBraced => "role rule must be wrapped in braces"
  | .noClaimName => "role rule has no claim name"
  | .noColon claim => "expected ':' after $" ++ claim
  | .badLiteral => "invalid literal: not a value of the query language"
  | .notOperatorObject => "role rule expects an operator object"
  | .notOneOperator => "role rule takes exactly one operator"
  | .variableInLiteral => "role rule literals cannot reference variables"
  | .inNotList v => "'in' expects a list, found " ++ v.display
  | .patternNotText => "'regexp' expects a string pattern"
  | .badPattern cause => "invalid regexp: " ++ cause.message
  | .unknownOperator operator => "unsupported role operator '" ++ operator ++ "'"
  | .badQuery => "invalid rule query: not a document of the query language"
  | .notOneDefinition => "rule must contain exactly one query"
  | .notQuery => "rule must be a query operation"
  | .definesFragment => "rule cannot define fragments"
  | .notOneRootField => "rule query must select exactly one root field"
  | .notQueryField field => "root field '" ++ field ++ "' is not a query<Type> field"
  | .unknownArgument argument field =>
    "unsupported argument '" ++ argument ++ "' on '" ++ field ++ "'"
  | .badFilter flaw => flaw.message
  | .usesFragment => "fragments are not allowed in rules"
  | .noRules => "combinator has no rules"
  | .undeclaredVariable name => "uses undeclared variable $" ++ name

/-- Whether a trimmed text is a role condition: a brace, blanks, a dollar sign. -/
def isRoleText (cs : List Char) : Bool :=
  match cs with
  | '{' :: rest => (Text.trimStart rest).head? = some '$'
  | _ => false

/-- The value of a literal, read as the argument of a field. -/
def literal (body : List Char) : Except Flaw Value :=
  match Graphql.document? ("\x7b literal(value: " ++ String.ofList body ++ ") \x7d") with
  | some (.query _ (.field _ ((_, v) :: _) _ :: _) :: _) => .ok v
  | _ => .error .badLiteral

/-- The test that an operator and its literal make. -/
def roleTest (operator : String) (v : Value) : Except Flaw RoleTest :=
  if !v.occurrences.isEmpty then .error .variableInLiteral
  else if operator = "eq" then .ok (.equal v)
  else if operator = "in" then
    match v with
    | .list options => .ok (.oneOf options)
    | v => .error (.inNotList v)
  else if operator = "regexp" then
    match v.asText with
    | none => .error .patternNotText
    | some source => ((Pattern.ofSource? source).mapError .badPattern).map .matching
  else .error (.unknownOperator operator)

/-- The role rule that a trimmed text writes. -/
def roleOfText (cs : List Char) : Except Flaw RoleRule :=
  match cs.head? , Text.before? ['}'] (cs.drop 1) with
  | some '{', some inner =>
    let afterDollar := (Text.trim inner).drop 1
    let isName := fun c => !(c = ':' || Text.isBlank c)
    let claim := String.ofList (afterDollar.takeWhile isName)
    if claim.isEmpty then .error .noClaimName
    else
      match Text.trimStart (afterDollar.dropWhile isName) with
      | ':' :: body => do
        match ← literal (Text.trim body) with
        | .object [(operator, v)] => (roleTest operator v).map fun test => ⟨claim, test⟩
        | .object _ => .error .notOneOperator
        | _ => .error .notOperatorObject
      | _ => .error (.noColon claim)
  | _, _ => .error .notBraced

/-- The filter that a field's arguments write.  Each argument is a filter, and the
last one counts. -/
def filterOf (field : String) : Option Filter → List (String × Value) →
    Except Flaw (Option Filter)
  | filter, [] => .ok filter
  | _, (name, v) :: rest =>
    if name = "filter" then
      match Filter.ofArgument v with
      | .ok filter => filterOf field filter rest
      | .error flaw => .error (.badFilter flaw)
    else .error (.unknownArgument name field)

mutual

/-- The selected field of a template. -/
def pick : Graphql.Selected → Except Flaw Pick
  | .field name arguments selections => do
    let filter ← filterOf name none arguments
    let picks ← picksOf selections
    .ok (.field name filter picks)
  | .fragment => .error .usesFragment

def picksOf : List Graphql.Selected → Except Flaw (List Pick)
  | [] => .ok []
  | s :: ss => do
    let p ← pick s
    let ps ← picksOf ss
    .ok (p :: ps)

end

/-- The query of a document: the variables that it declares, and what it selects. -/
def queryOf : List Graphql.Definition → Except Flaw (List String × List Graphql.Selected)
  | [.query declared selections] => .ok (declared, selections)
  | [.otherOperation] => .error .notQuery
  | [.fragment] => .error .definesFragment
  | _ => .error .notOneDefinition

/-- The template that a query's selections make. -/
def templateOf : List Graphql.Selected → Except Flaw Template
  | [.field name arguments selections] =>
    match Text.after? "query".toList name.toList with
    | some (c :: cs) => do
      let filter ← filterOf name none arguments
      let picks ← picksOf selections
      .ok ⟨String.ofList (c :: cs), filter, picks⟩
    | _ => .error (.notQueryField name)
  | _ => .error .notOneRootField

/-- The graph rule that a trimmed text writes. -/
def graphOfText (cs : List Char) : Except Flaw GraphRule :=
  let source := String.ofList cs
  match Graphql.document? source with
  | none => .error .badQuery
  | some definitions => do
    let (declared, selections) ← queryOf definitions
    let template ← templateOf selections
    match template.variableNames.find? fun name => !declared.contains name with
    | some name => .error (.undeclaredVariable name)
    | none => .ok ⟨source, declared, template⟩

/-- The rule that a text writes. -/
def ofText (s : String) : Except Flaw Rule :=
  let cs := Text.trim s.toList
  if cs.isEmpty then .error .empty
  else if isRoleText cs then (roleOfText cs).map .role
  else (graphOfText cs).map .graph

/-- A rule as it is declared. -/
inductive Declaration where
  | rule (text : String)
  | all (rules : List Declaration)
  | any (rules : List Declaration)
  | not (rule : Declaration)

mutual

/-- The rule that a declaration makes; a connective needs at least one rule. -/
def compile : Declaration → Except Flaw Rule
  | .rule text => ofText text
  | .all [] | .any [] => .error .noRules
  | .all rules => (compileAll rules).map (.combine .all)
  | .any rules => (compileAll rules).map (.combine .any)
  | .not rule => (compile rule).map fun r => .combine .not [r]

def compileAll : List Declaration → Except Flaw (List Rule)
  | [] => .ok []
  | d :: ds => do
    let r ← compile d
    let rs ← compileAll ds
    .ok (r :: rs)

end

end GraphWarden.Rule
