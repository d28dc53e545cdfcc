import Ochestrate.Framework.Dict

/-!
# State graphs

A graph of named nodes, each a program from a state to a state, built with
`addNode`, `setEntryPoint` and `addEdge`. `Chain` is a path along single edges
from a node to the end of the graph. `RunsInEdgeOrder` is what a runtime
promises of such graphs: it runs the nodes of the path one after the other,
hands each the state that the one before returned, and lets what they raise
through. `walk` is a runtime that does.
-/

namespace Ochestrate

universe u v

/-- A graph under construction; the end of a path is the name `endSymbol`. -/
structure StateGraph (m : Type u → Type v) (S : Type u) where
  endSymbol : String
  nodes : Dict String (S → m S) := .empty
  entry : Option String := none
  edges : List (String × String) := []

namespace StateGraph

variable {m : Type u → Type v} {S : Type u}

def addNode (G : StateGraph m S) (name : String) (node : S → m S) : StateGraph m S :=
  { G with nodes := G.nodes.set name node }

def setEntryPoint (G : StateGraph m S) (name : String) : StateGraph m S := { G with entry := some name }

def addEdge (G : StateGraph m S) (source target : String) : StateGraph m S :=
  { G with edges := G.edges ++ [(source, target)] }

/-- The targets of the edges out of a node. -/
def successors (G : StateGraph m S) (name : String) : List String :=
  (G.edges.filter fun e => e.1 = name).map Prod.snd

/-- The nodes on the path from a node to the end, each with one edge out. -/
inductive Chain (G : StateGraph m S) : String → List (S → m S) → Prop
  | stop : Chain G G.endSymbol []
  | step {name next : String} {node : S → m S} {nodes : List (S → m S)} (hend : name ≠ G.endSymbol)
      (hnode : G.nodes.get? name = some node) (hnext : G.successors name = [next]) (hrest : Chain G next nodes) :
      Chain G name (node :: nodes)

/-- The programs one after the other, each from the state that the one before
returned. -/
def runNodes [Monad m] (nodes : List (S → m S)) (state : S) : m S :=
  nodes.foldlM (fun state node => node state) state

/-- A runtime runs the path from the entry point, if it has no more nodes than
the limit. -/
def RunsInEdgeOrder [Monad m] (limit : Nat) (invoke : StateGraph m S → S → m S) : Prop :=
  ∀ (G : StateGraph m S) (name : String) (nodes : List (S → m S)), G.entry = some name → G.Chain name nodes →
    nodes.length ≤ limit → ∀ state, invoke G state = runNodes nodes state

section Walk

variable [Monad m] (stuck : m S)

/-- The run from a node on: `stuck` where there is no node or no single edge, and
when the limit is reached before the end. -/
def walkFrom (G : StateGraph m S) : Nat → String → S → m S
  | 0, name, state => if name = G.endSymbol then pure state else stuck
  | limit + 1, name, state =>
    if name = G.endSymbol then pure state
    else
      match G.nodes.get? name, G.successors name with
      | some node, [next] => node state >>= walkFrom G limit next
      | _, _ => stuck

/-- A runtime that follows the edges. -/
def walk (limit : Nat) (G : StateGraph m S) (state : S) : m S :=
  match G.entry with
  | none => stuck
  | some name => walkFrom stuck G limit name state

theorem walkFrom_chain {G : StateGraph m S} {name : String} {nodes : List (S → m S)} (h : G.Chain name nodes) :
    ∀ {limit : Nat}, nodes.length ≤ limit → ∀ state, walkFrom stuck G limit name state = runNodes nodes state := by
  induction h with
  | stop =>
    intro limit _ state
    cases limit <;> exact if_pos rfl
  | @step name next node nodes hend hnode hnext _ ih =>
    intro limit hlen state
    cases limit with
    | zero => simp at hlen
    | succ limit =>
      have hlen' : nodes.length ≤ limit := by simpa using hlen
      simp only [walkFrom, if_neg hend, hnode, hnext, runNodes, List.foldlM_cons]
      exact congrArg (node state >>= ·) (funext fun state => ih hlen' state)

theorem walk_runsInEdgeOrder (limit : Nat) : RunsInEdgeOrder limit (walk (S := S) stuck limit) := by
  intro G name nodes hentry hchain hlen state
  simp only [walk, hentry]
  exact walkFrom_chain stuck hchain hlen state

end Walk

end StateGraph

end Ochestrate
