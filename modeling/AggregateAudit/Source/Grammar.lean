import AggregateAudit.Source.Grammar.Declarations

/-!
# The grammar

Which form each category names.
-/

namespace AggregateAudit
namespace Source

open Form in
/-- The form that a category names. -/
def Category.form : Category → Form
  | simpleName => Grammar.simpleName
  | qualifiedName => Grammar.qualifiedName
  | typeArguments => Grammar.typeArguments
  | typeParameters => Grammar.typeParameters
  | type => Grammar.type
  | suffix shape goal => Grammar.suffix shape goal
  | arrayType => Grammar.typeEnding [.array]
  | ranks => Grammar.ranks
  | tupleElements => Grammar.tupleElements
  | conventions => separated name
  | expression => Grammar.expression
  | term => Grammar.term
  | primary => either Grammar.primaryPlace Grammar.primaryValue
  | place => Grammar.place
  | argument => Grammar.argument
  | arguments => listed (call .argument)
  | someArguments => separated (call .argument)
  | pair => Grammar.pair
  | initializer => Grammar.initializer
  | commas => many (sign ",")
  | arms => Grammar.arms
  | withMembers => Grammar.withMembers
  | queryBody => Grammar.queryBody
  | referenceValue => call .expression ++ sign "," ++ call .type
  | textParts => many (either textPart (group .hole .hole))
  | hole => Grammar.hole
  | pattern => Grammar.pattern
  | patternTerm => Grammar.patternTerm
  | designation => Grammar.designation
  | designations => listed (call .designation)
  | listPattern => Grammar.listPattern
  | positionalPattern => Grammar.positionalPattern
  | propertyPattern => Grammar.propertyPattern
  | statement => Grammar.statement
  | statements => many (call .statement)
  | statementExpression => Grammar.statementExpression
  | value => Grammar.value
  | functionBody => Grammar.functionBody
  | variableList => Grammar.variableList
  | tuplePattern => Grammar.tuplePattern
  | forHead => Grammar.forHead
  | foreachHead => Grammar.foreachHead
  | usingHead => Grammar.usingHead
  | exceptionHead => Grammar.exceptionHead
  | sections => Grammar.sections
  | declaration => Grammar.declaration
  | declarations => many (call .declaration)
  | item => Grammar.item
  | items => many (call .item)
  | typeDeclaration => Grammar.typeDeclaration
  | attributes => Grammar.attributes
  | globalAttributes => Grammar.globalAttributes
  | attributeArguments => Grammar.attributeArguments
  | parameters => listed Grammar.parameter
  | someParameters => separated Grammar.parameter
  | constraint => Grammar.constraint
  | accessors => Grammar.accessors
  | enumMember => Grammar.enumMember
  | enumMembers => Grammar.enumMembers
  | nothing => .empty
  | branch content =>
    Grammar.branchContent content ++ optional (group .alternative (.branch content))

end Source
end AggregateAudit
