import GrServer.PriorityQueue
import GrServer.SortedMap
import GrServer.SwapRemove

/-!
# The HNSW graph

Nodes with an embedding, a level, and on each layer up to it a list of
neighbours by position.  A search goes down the layers from the entry point and
widens on the lowest one; an insert links the new node on all its layers, and
in a full graph removes a node before.

Embeddings and distances are parameters: distances are compared by a total
preorder, and the two heaps of a search may order equals as they like.
-/

namespace GrServer

namespace Hnsw

open SwapRemove

/-- Max neighbors per layer (layers > 0). -/
def M : ℕ := 16

def mMax0 : ℕ := 32

def efConstruction : ℕ := 64

def efSearch : ℕ := 32

def maxNodes : ℕ := 8192

structure Metric (E D : Type) where
  cosineDist : E → E → D
  le : D → D → Bool
  total : ∀ a b, le a b || le b a
  trans : ∀ a b c, le a b → le b c → le a c
  /-- Of an embedding that is not there. -/
  far : D
  /-- `f32::MAX`. -/
  most : D
  /-- The distance of a node that is found by its hash. -/
  discounted : D → D

variable {E D : Type}

def Metric.lt (K : Metric E D) (a b : D) : Bool := !K.le b a

abbrev Cand (D : Type) := ℕ × D

/-- `Reverse<(ordered_f32, usize)>`: the nearest outranks, of equals the first. -/
def nearer (K : Metric E D) (x y : D × ℕ) : Bool :=
  K.lt y.1 x.1 || (!K.lt x.1 y.1 && decide (y.2 ≤ x.2))

/-- `Cand`: the farthest outranks. -/
def farther (K : Metric E D) (x y : Cand D) : Bool := K.le x.2 y.2

structure Setting (E D : Type) extends Metric E D where
  assignLevel : String → ℕ
  candidates : PriorityQueue (D × ℕ) (nearer toMetric)
  results : PriorityQueue (Cand D) (farther toMetric)

structure Node (E : Type) where
  id : String
  emb : E
  lsh : String
  level : ℕ
  /-- Layer by layer. -/
  neighbors : List (List ℕ)

structure Graph (E : Type) where
  nodes : List (Node E)
  byId : SortedMap String ℕ
  entry : Option ℕ
  dirty : Bool

def Graph.new : Graph E := ⟨[], SortedMap.empty, none, false⟩

def Graph.ids (g : Graph E) : List String := g.nodes.map Node.id

def Graph.levels (g : Graph E) : List ℕ := g.nodes.map Node.level

def mForLayer (layer : ℕ) : ℕ := if layer = 0 then mMax0 else M

/-! ## Search -/

section Search

variable (S : Setting E D) (g : Graph E)

/-- `sort_by` on the distance; it is stable. -/
def sortByDist (hits : List (Cand D)) : List (Cand D) :=
  hits.mergeSort fun a b => S.le a.2 b.2

structure Frontier where
  visited : List ℕ
  candidates : S.candidates.Queue
  w : S.results.Queue

def Frontier.empty : Frontier S := ⟨[], S.candidates.empty, S.results.empty⟩

def Frontier.take (f : Frontier S) (d : D) (i : ℕ) : Frontier S where
  visited := i :: f.visited
  candidates := S.candidates.push (d, i) f.candidates
  w := S.results.push (i, d) f.w

def enter (query : E) (layer : ℕ) (f : Frontier S) (e : ℕ) : Frontier S :=
  match g.nodes[e]? with
  | none => f
  | some n =>
      if f.visited.contains e ∨ n.level < layer then f
      else f.take S (S.cosineDist query n.emb) e

def seeds (query : E) (ep : List ℕ) (layer : ℕ) : Frontier S :=
  let f := ep.foldl (enter S g query layer) (Frontier.empty S)
  if S.results.items f.w = [] then
    match g.nodes.findIdx? fun n => decide (layer ≤ n.level) with
    | some i => enter S g query layer f i
    | none => f
  else f

def worst (f : Frontier S) : D := ((S.results.peek f.w).map Prod.snd).getD S.most

def visit (query : E) (ef layer : ℕ) (f : Frontier S) (nb : ℕ) : Frontier S :=
  match g.nodes[nb]? with
  | none => f
  | some n =>
      if f.visited.contains nb then f
      else if n.level < layer then { f with visited := nb :: f.visited }
      else
        let d := S.cosineDist query n.emb
        if S.lt d (worst S f) ∨ (S.results.items f.w).length < ef then
          let f := f.take S d nb
          if ef < (S.results.items f.w).length then { f with w := S.results.dropTop f.w } else f
        else { f with visited := nb :: f.visited }

def neighborsAt (i layer : ℕ) : List ℕ :=
  ((g.nodes[i]?.bind fun n => n.neighbors[layer]?)).getD []

def expand (query : E) (ef layer : ℕ) : ℕ → Frontier S → Frontier S
  | 0, f => f
  | fuel + 1, f =>
      match S.candidates.pop f.candidates with
      | none => f
      | some ((d, c), rest) =>
          let f := { f with candidates := rest }
          if S.lt (worst S f) d ∧ ef ≤ (S.results.items f.w).length then f
          else expand query ef layer fuel
            ((neighborsAt g c layer).foldl (visit S g query ef layer) f)

def bruteForce (query : E) (layer : ℕ) : List (Cand D) :=
  sortByDist S ((g.nodes.zipIdx.filter fun p => decide (layer ≤ p.1.level)).map fun p =>
    (p.2, S.cosineDist query p.1.emb))

/-- The `ef` closest at a layer, from the entry points. -/
def searchLayer (query : E) (ep : List ℕ) (ef layer : ℕ) : List (Cand D) :=
  if g.nodes = [] ∨ ep = [] then []
  else
    let ef := max ef 1
    let f := seeds S g query ep layer
    if S.results.items f.w = [] then []
    else
      let f := expand S g query ef layer (g.nodes.length + 1) f
      if g.nodes.length ≤ 48 then (bruteForce S g query layer).take ef
      else sortByDist S (S.results.items f.w)

/-- Greedy from layer `hi` down to `lo`, one node a layer. -/
def descend (query : E) (lo hi : ℕ) (curr : List ℕ) : List ℕ :=
  (List.range' lo (hi + 1 - lo)).reverse.foldl
    (fun curr lc =>
      match (searchLayer S g query curr 1 lc).head? with
      | some c => [c.1]
      | none => curr) curr

def entryLevel (g : Graph E) (entry : ℕ) : ℕ := (g.nodes[entry]?.map Node.level).getD 0

def startsWith (text pref : String) : Bool := pref.toList.isPrefixOf text.toList

def boost (query : E) (lsh : String) (hits : List (Cand D)) : List (Cand D) :=
  if lsh.utf8ByteSize < 4 then hits
  else
    let pref := String.ofList (lsh.toList.take 8)
    g.nodes.zipIdx.foldl
      (fun hits p =>
        if startsWith p.1.lsh pref ∧ ¬hits.any (fun h => h.1 == p.2) then
          hits ++ [(p.2, S.discounted (S.cosineDist query p.1.emb))]
        else hits) hits

def hnswSearchGraph (query : E) (lsh : String) (k : ℕ) : List (String × D) :=
  if g.nodes = [] then []
  else
    let entry := g.entry.getD 0
    let curr := descend S g query 1 (entryLevel g entry) [entry]
    let hits := searchLayer S g query curr (min (max efSearch k) (max g.nodes.length 1)) 0
    let hits := sortByDist S (boost S g query lsh hits)
    let hits := hits.destutter fun a b => a.1 ≠ b.1
    (hits.take k).filterMap fun h => g.nodes[h.1]?.map fun n => (n.id, h.2)

end Search

/-! ## Links -/

section Links

variable (S : Setting E D)

def selectNeighbors (candidates : List (Cand D)) (m : ℕ) : List ℕ :=
  (candidates.take m).map Prod.fst

/-- The neighbours of a node that are kept: the nearest `m`, when there are more. -/
def trim (embs : List E) (emb : E) (m : ℕ) (nbs : List ℕ) : List ℕ :=
  if m < nbs.length then
    let scored := nbs.map fun j => (j, ((embs[j]?).map (S.cosineDist emb)).getD S.far)
    selectNeighbors (sortByDist S scored) m
  else nbs

def Node.withLayer (layer : ℕ) (n : Node E) : Node E :=
  { n with neighbors :=
      n.neighbors ++ List.replicate (layer + 1 - n.neighbors.length) [] }

def Node.addNeighbor (embs : List E) (layer dst : ℕ) (n : Node E) : Node E :=
  let add (nbs : List ℕ) : List ℕ :=
    trim S embs n.emb (mForLayer layer) (if nbs.contains dst then nbs else nbs ++ [dst])
  { n with neighbors := n.neighbors.modify layer add }

/-- The half of `connect` that adds `dst` to the list of `src`. -/
def link (embs : List E) (layer : ℕ) (nodes : List (Node E)) (src dst : ℕ) : List (Node E) :=
  nodes.modify src (Node.addNeighbor S embs layer dst)

def connect (g : Graph E) (a b layer : ℕ) : Graph E :=
  if a = b ∨ g.nodes.length ≤ a ∨ g.nodes.length ≤ b then g
  else
    let embs := g.nodes.map Node.emb
    let nodes := (g.nodes.modify a (Node.withLayer layer)).modify b (Node.withLayer layer)
    { g with nodes := link S embs layer (link S embs layer nodes a b) b a }

end Links

/-- `max_by_key` on the level: the last of the highest. -/
def highest (levels : List ℕ) : Option ℕ :=
  (levels.zipIdx.foldl
    (fun best p =>
      match best with
      | some b => if b.1 ≤ p.1 then some p else some b
      | none => some p) (none : Option (ℕ × ℕ))).map Prod.snd

def indexed (ids : List String) : SortedMap String ℕ :=
  ids.zipIdx.foldl (fun m p => m.insert p.1 p.2) SortedMap.empty

def removeIdx (g : Graph E) (idx : ℕ) : Graph E :=
  if g.nodes.length ≤ idx then g
  else
    let last := g.nodes.length - 1
    let nodes := (swapRemove g.nodes idx).map fun n =>
      { n with neighbors := n.neighbors.map fun layer => layer.filterMap (renamed last idx) }
    { g with
      nodes := nodes
      byId := indexed (nodes.map Node.id)
      entry := highest (nodes.map Node.level) }

section Insertion

variable (S : Setting E D)

/-- The neighbours on each layer, from the highest that the graph has in common
with the new node down, and the point where the search stands. -/
def chooseNeighbors (g : Graph E) (emb : E) (level entryLevel : ℕ) (curr : List ℕ) :
    List (List ℕ) :=
  ((List.range (min level entryLevel + 1)).reverse.foldl
    (fun (s : List (List ℕ) × List ℕ) lc =>
      let candidates := searchLayer S g emb s.2 efConstruction lc
      (s.1.set lc (selectNeighbors candidates (mForLayer lc)),
        match candidates.head? with
        | some best => [best.1]
        | none => s.2))
    (List.replicate (level + 1) [], curr)).1

def connectAll (g : Graph E) (idx : ℕ) (neighborsPerLayer : List (List ℕ)) : Graph E :=
  neighborsPerLayer.zipIdx.foldl
    (fun g p => p.1.foldl (fun g nb => connect S g idx nb p.2) g) g

/-- What is written to the shared file is the graph itself. -/
def maybePersist (g : Graph E) : Graph E :=
  if !g.dirty ∨ (g.nodes.length % 8 ≠ 0 ∧ 1 < g.nodes.length) then g
  else { g with dirty := false }

def settled (persist : Bool) (g : Graph E) : Graph E :=
  let g := { g with dirty := true }
  if persist then maybePersist g else g

def updateNode (g : Graph E) (idx : ℕ) (emb : E) (lsh : String) : Graph E :=
  { g with nodes := g.nodes.modify idx fun n => { n with emb := emb, lsh := lsh } }

def addNode (g : Graph E) (deviceId : String) (emb : E) (lsh : String) : Graph E :=
  let level := S.assignLevel deviceId
  let idx := g.nodes.length
  if g.nodes = [] then
    { g with
      nodes := [⟨deviceId, emb, lsh, level, List.replicate (level + 1) []⟩]
      byId := g.byId.insert deviceId idx
      entry := some idx }
  else
    let entry := g.entry.getD 0
    let top := entryLevel g entry
    let curr := descend S g emb (level + 1) (max top level) [entry]
    let neighbors := chooseNeighbors S g emb level top curr
    let g :=
      { g with
        nodes := g.nodes ++ [⟨deviceId, emb, lsh, level, neighbors⟩]
        byId := g.byId.insert deviceId idx }
    let g := connectAll S g idx neighbors
    if top < level then { g with entry := some idx } else g

/-- Drop lowest index (oldest-ish) when there is no room. -/
def makeRoom (g : Graph E) : Graph E :=
  if maxNodes ≤ g.nodes.length then removeIdx g 0 else g

def hnswInsertGraph (g : Graph E) (deviceId : String) (emb : E) (lsh : String)
    (persist : Bool) : Graph E :=
  match g.byId.get? deviceId with
  | some idx => settled persist (updateNode g idx emb lsh)
  | none => settled persist (addNode S (makeRoom g) deviceId emb lsh)

end Insertion

end Hnsw

end GrServer
