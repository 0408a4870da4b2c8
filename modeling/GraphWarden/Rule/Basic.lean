import GraphWarden.Claims
import GraphWarden.Filter.Combine
import GraphWarden.Pattern.Compiled

/-!
# Rules

A rule says which nodes a request may read or change.  A role rule looks at one
claim and decides for all nodes alike; a graph rule asks for nodes from which a
small query, its template, can be answered; and rules are combined by `and`,
`or` and `not`.

A template is read with cascade semantics: a node answers it when each selected
field is there, and each selected edge leads to a node that answers what is
selected behind it.  `Template.lowered` turns that reading into one filter.
-/

namespace GraphWarden

/-- What a rule governs. -/
inductive Operation where
  | query
  | add
  | update
  | delete
  | password
deriving DecidableEq, Repr

namespace Operation

/-- Every operation, in the order in which rules are compiled. -/
def every : List Operation :=
  [query, add, update, delete, password]

/-- The name of an operation in schemas. -/
def name : Operation → String
  | query => "query"
  | add => "add"
  | update => "update"
  | delete => "delete"
  | password => "password"

/-- The operation of this name. -/
def ofName? (s : String) : Option Operation :=
  every.find? fun op => op.name == s

/-- Whether the operation changes stored nodes. -/
def isWrite : Operation → Bool
  | add | update | delete => true
  | query | password => false

theorem mem_every (op : Operation) : op ∈ every := by
  cases op <;> decide

theorem ofName?_name (op : Operation) : ofName? op.name = some op := by
  cases op <;> decide

/-- Operations are told apart by their names, because they can be read from them. -/
theorem name_injective : Function.Injective name := by
  intro op op' h
  simpa [ofName?_name] using congrArg ofName? h

end Operation

/-- What a role rule asks of its claim. -/
inductive RoleTest where
  | equal (literal : Value)
  | oneOf (options : List Value)
  | matching (pattern : Pattern)

/-- A condition on one claim. -/
structure RoleRule where
  claim : String
  test : RoleTest

namespace RoleTest

/-- Whether one value passes the test. -/
def passes (test : RoleTest) (v : Value) : Bool :=
  match test with
  | .equal literal => v.looseEq literal
  | .oneOf options => options.any v.looseEq
  | .matching pattern => v.asText.any pattern.foundIn

/-- Whether the test asks for a list. -/
def wantsList : RoleTest → Bool
  | .equal (.list _) => true
  | _ => false

mutual

/-- Whether a claim passes the test; of a list it is enough that one item does,
unless the test asks for a list. -/
def admits (test : RoleTest) (claim : Claim) : Bool :=
  match claim with
  | .list items =>
    if test.wantsList then test.passes (Claim.list items).toValue else admitsAny test items
  | c => test.passes c.toValue

def admitsAny (test : RoleTest) : List Claim → Bool
  | [] => false
  | c :: cs => admits test c || admitsAny test cs

end

end RoleTest

/-- Whether the claims satisfy the rule; an absent claim never does. -/
def RoleRule.holds (rule : RoleRule) (claims : Claims) : Bool :=
  (claims.find? rule.claim).any rule.test.admits

/-- A field that a template selects, with a filter on the nodes behind it and what
is selected of them. -/
inductive Pick where
  | field (name : String) (filter : Option Filter) (picks : List Pick)

mutual

/-- What a selected field asks of a node; every node has an id. -/
def Pick.condition : Pick → Option Filter
  | .field name filter picks =>
    if picks.isEmpty && filter.isNone then
      if name = "id" then none else some (.has name)
    else
      match Filter.conjunction? (filter.toList ++ conditions picks) with
      | none => some (.has name)
      | some inner => some (.edge name inner)

def Pick.conditions : List Pick → List Filter
  | [] => []
  | p :: ps => (condition p).toList ++ conditions ps

end

/-- The query of a graph rule: a type, a filter, and selected fields. -/
structure Template where
  rootType : String
  filter : Option Filter
  picks : List Pick

namespace Template

/-- The template as one filter on nodes of its root type; none when every such
node answers it. -/
def lowered (t : Template) : Option Filter :=
  Filter.conjunction? (t.filter.toList ++ Pick.conditions t.picks)

/-- The variables that the template uses. -/
def variableNames (t : Template) : List String :=
  (t.lowered.map Filter.variableNames).getD []

end Template

/-- A rule that is a query over the graph. -/
structure GraphRule where
  /-- The rule as it was written. -/
  source : String
  /-- The variables that it declares. -/
  declared : List String
  template : Template

namespace GraphRule

/-- The type that the rule's query selects from. -/
def rootType (rule : GraphRule) : String := rule.template.rootType

/-- The filter of the rule's query; none when it has no condition. -/
def filter (rule : GraphRule) : Option Filter := rule.template.lowered

end GraphRule

/-- How rules are combined. -/
inductive Connective where
  | all
  | any
  | not
deriving DecidableEq, Repr

/-- The name of a connective. -/
def Connective.name : Connective → String
  | all => "and"
  | any => "or"
  | not => "not"

/-- A rule.  Of the rules under `not` only the first one counts. -/
inductive Rule where
  | graph (rule : GraphRule)
  | role (rule : RoleRule)
  | combine (op : Connective) (rules : List Rule)

namespace Rule

mutual

/-- The graph rules inside a rule, from left to right. -/
def graphRules : Rule → List GraphRule
  | .graph rule => [rule]
  | .role _ => []
  | .combine _ rules => graphRulesOf rules

def graphRulesOf : List Rule → List GraphRule
  | [] => []
  | r :: rs => graphRules r ++ graphRulesOf rs

end

end Rule

end GraphWarden
