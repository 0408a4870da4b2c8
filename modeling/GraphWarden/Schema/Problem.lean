import GraphWarden.Schema.Basic

/-!
# What is wrong with a schema

A schema that is not accepted has a problem, which is told to its author.  A
place of a rule is written as the type and the operation, with a dot between.
-/

namespace GraphWarden

/-- Why a directive argument declares no rule. -/
inductive DeclarationFlaw where
  | unknownArgument (name : String)
  | notObject (found : Value)
  | notOneKey
  | ruleNotText
  | groupNotList (key : String)
  | unknownKey (key : String)

/-- The wording of a flaw in a declaration. -/
def DeclarationFlaw.message : DeclarationFlaw → String
  | .unknownArgument name => "unknown @auth argument '" ++ name ++ "'"
  | .notObject v => "expected a rule object, found " ++ v.display
  | .notOneKey => "rule object must have exactly one of rule, and, or, not"
  | .ruleNotText => "'rule' expects a string"
  | .groupNotList key => "'" ++ key ++ "' expects a list"
  | .unknownKey key => "unknown rule key '" ++ key ++ "'"

/-- What is wrong with a rule at its place. -/
inductive RuleFault where
  | declaration (flaw : DeclarationFlaw)
  | text (flaw : Rule.Flaw)
  | foreignRoot (root typeName : String)

/-- The wording of what is wrong with a rule. -/
def RuleFault.message : RuleFault → String
  | .declaration flaw => flaw.message
  | .text flaw => flaw.message
  | .foreignRoot root typeName =>
    "rule queries '" ++ root ++ "', which '" ++ typeName ++ "' does not implement"

/-- Why a schema is not accepted. -/
inductive SchemaProblem where
  | rulesOnUnion (name : String)
  | duplicateType (name : String)
  | unknownType (name context : String)
  | unknownInterface (typeName interface : String)
  | notInterface (typeName interface : String)
  | inheritanceCycle (path : List String)
  | malformedRule (place : String) (fault : RuleFault)
  | undeclaredVariable (place variableName : String)
  | badDescriptor (flaw : Descriptor.Flaw)
  | unreadable

namespace SchemaProblem

/-- The problem that a flaw makes of a rule at its place. -/
def ofRuleFlaw (place : String) : Rule.Flaw → SchemaProblem
  | .undeclaredVariable name => .undeclaredVariable place name
  | flaw => .malformedRule place (.text flaw)

/-- The wording of a problem. -/
def message : SchemaProblem → String
  | .rulesOnUnion name => "Union type '" ++ name ++ "' cannot declare auth rules"
  | .duplicateType name => "Duplicate type definition: " ++ name
  | .unknownType name context => "Unknown type '" ++ name ++ "' referenced from " ++ context
  | .unknownInterface typeName interface =>
    "Type '" ++ typeName ++ "' implements unknown interface '" ++ interface ++ "'"
  | .notInterface typeName interface =>
    "Type '" ++ typeName ++ "' implements '" ++ interface ++ "', which is not an interface"
  | .inheritanceCycle path => "Interface inheritance cycle: " ++ String.intercalate " -> " path
  | .malformedRule place fault => "Malformed rule on " ++ place ++ ": " ++ fault.message
  | .undeclaredVariable place name =>
    "Rule on " ++ place ++ " uses undeclared variable $" ++ name
  | .badDescriptor flaw => "Invalid authorization descriptor: " ++ flaw.message
  | .unreadable => "Schema parse error: not a type system document"

end SchemaProblem

end GraphWarden
