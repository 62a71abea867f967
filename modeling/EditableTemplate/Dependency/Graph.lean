import EditableTemplate.Dependency.Walk
import EditableTemplate.Template.Failure

/-!
# Dependencies between variables

A variable depends on the variable that its default refers to. `DependencyGraph.ofDefaults` is the
graph of these dependencies, and `DependencyGraph.schedule` the order in which values can be
computed; a circle is a failure.
-/

namespace EditableTemplate.DependencyGraph

/-- What a variable with a given default depends on. -/
def dependencies : Option Default → List String
  | some (.reference name) => [name]
  | _ => []

/-- The graph of the dependencies between variables with the given defaults. -/
def ofDefaults (defaults : Bindings (Option Default)) : DependencyGraph :=
  defaults.map dependencies

/-- The names of a graph, each after those that it depends on. -/
def schedule (graph : DependencyGraph) : Except Failure (List String) :=
  match graph.order with
  | .ok order => .ok order
  | .error members => .error (.cycle members)

end EditableTemplate.DependencyGraph
