import AggregateAudit.Rule
import AggregateAudit.Text.Lowercase
import AggregateAudit.Text.Search

/-!
# The four rules of aggregates

Three rules look at constructors, and only at those whose name speaks of an
aggregate and not of a test.  A constructor without parameters has to be public
and empty, so that it can be called before state is replayed; a constructor with
parameters has to be private, so that new aggregates come from factory methods.
The fourth rule looks at methods named `Apply` of types that derive from an
aggregate root: they have to be public.

The order of the catalogue is the order in which findings about one declaration
are reported.
-/

namespace AggregateAudit

/-- Whether a name speaks of an aggregate and not of a test, in any case of
letters. -/
def isAggregateName (name : String) : Bool :=
  let small := Text.lowercase name.toList
  Text.occurs "aggregate".toList small && !Text.occurs "test".toList small

namespace Rule

/-- Constructors without parameters are public. -/
def publicDefaultConstructor : Rule :=
  RuleInfo.against
    { code := "AG0004"
      name := "public-default-constructor"
      title := "Aggregate default constructor must be public"
      description := "The parameterless constructor of an aggregate must be public"
      help := some "Declare the parameterless constructor as `public`" }
    fun _ d =>
      match d with
      | .constructor c => isAggregateName c.name && !c.hasParameters && !c.isPublic
      | .method .. => false

/-- Constructors without parameters hold no statements. -/
def emptyConstructor : Rule :=
  RuleInfo.against
    { code := "AG0001"
      name := "empty-constructor"
      title := "Aggregate default constructor must be empty"
      description := "The parameterless constructor of an aggregate must not contain any statements"
      help := some "Move initialization into a private constructor or an `Apply` method" }
    fun _ d =>
      match d with
      | .constructor c => isAggregateName c.name && !c.hasParameters && c.hasStatements
      | .method .. => false

/-- Constructors with parameters are private. -/
def privateParameterizedConstructor : Rule :=
  RuleInfo.against
    { code := "AG0002"
      name := "private-parameterized-constructor"
      title := "Aggregate constructors with parameters must be private"
      description := "Constructors with parameters on an aggregate must be private"
      help := some "Make the constructor `private` and expose a static factory method" }
    fun _ d =>
      match d with
      | .constructor c => isAggregateName c.name && c.hasParameters && !c.isPrivate
      | .method .. => false

/-- Methods named `Apply` of aggregate roots are public. -/
def publicApplyMethod : Rule :=
  RuleInfo.against
    { code := "AG0003"
      name := "public-apply-method"
      title := "Apply methods must be public"
      description := "Apply methods on an AggregateRoot must be public"
      help := some "Declare `Apply` as `public`" }
    fun matcher d =>
      match d with
      | .constructor _ => false
      | .method m owner => m.name == "Apply" && matcher owner && !m.isPublic

/-- All rules, in the order in which they are asked. -/
def all : List Rule :=
  [publicDefaultConstructor, emptyConstructor, privateParameterizedConstructor, publicApplyMethod]

/-! ## Selection -/

/-- Whether a selector names a rule: by its name as it is, or by its code in any
case of letters. -/
def isNamedBy (r : Rule) (selector : String) : Bool :=
  r.info.name == selector || Text.eqIgnoringCase r.info.code selector

/-- The rules that some selector names, in their own order. -/
def select (selectors : List String) : List Rule :=
  all.filter fun r => selectors.any r.isNamedBy

/-- The selectors that name no rule, in the order given. -/
def unknown (selectors : List String) : List String :=
  selectors.filter fun s => !all.any (·.isNamedBy s)

end Rule
end AggregateAudit
