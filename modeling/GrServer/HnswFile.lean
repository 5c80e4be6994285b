import GrServer.Faults
import GrServer.HnswInserts
import GrServer.SharedGovernance

/-!
# The shared file of the HNSW graph

A node is written as a record with its neighbours by position.  A reader leaves
out a record without an id or with an embedding of another length, and takes the
positions in the others as they are.  The numbers of an embedding are `f32` in
the graph and `f64` in the file.
-/

namespace GrServer

namespace Hnsw

open Json Faults SharedGovernance

def hnswLiteAlgo : String := "hnsw_multilayer_v2"

def embDim : ℕ := 32

abbrev Emb (F : Type) := Fin embDim → F

/-- The finite numbers of an embedding; one that is written is read as it was. -/
structure F32 (F : Type) where
  toF64 : F → ℚ
  ofF64 : ℚ → F
  exact : ∀ x, ofF64 (toF64 x) = x

variable {F : Type} (N : F32 F)

def positionsJson (nbs : List ℕ) : Json := .arr (nbs.map fun (j : ℕ) => ofInt j)

def nodeJson (n : Node (Emb F)) : Json :=
  .obj [("emb", .arr ((List.ofFn n.emb).map fun x => .num (.float (N.toF64 x)))),
    ("id", .str n.id), ("level", ofInt n.level), ("lsh", .str n.lsh),
    ("neighbors", .arr (n.neighbors.map positionsJson))]

def entryJson : Option ℕ → Json
  | some e => ofInt e
  | none => .null

def persistGraph (g : Graph (Emb F)) (v : Json) : Json :=
  let o := asObjectOrEmpty v
  let o := o.setMember "algo" (.str hnswLiteAlgo)
  let o := o.setMember "emb_dim" (ofInt embDim)
  let o := o.setMember "multilayer" (.bool true)
  let o := o.setMember "nodes" (.arr (g.nodes.map (nodeJson N)))
  o.setMember "entry" (entryJson g.entry)

/-! ## Reading -/

def docNodes (v : Json) : List Json := ((v.get? "nodes").bind asArray).getD []

def docEntry (v : Json) : Option ℕ := (v.get? "entry").bind asU64

def recordId (r : Json) : String := r.strOr "id"

def recordEmb (r : Json) : List F :=
  (((r.get? "emb").bind asArray).map fun a =>
    a.filterMap fun x => x.asF64.map N.ofF64).getD []

def recordLevel (r : Json) : ℕ := ((r.get? "level").bind asU64).getD 0

def positions (a : List Json) : List ℕ := a.filterMap asU64

def isLayered (a : List Json) : Bool := (a.head?.map fun x => x.asArray.isSome).getD false

def layersOf (a : List Json) : List (List ℕ) :=
  a.map fun layer => (layer.asArray.map positions).getD []

/-- `vec![Vec::new(); level + 1]`, of 24 bytes each.  A release build wraps the sum,
and what the allocator is out of is not modelled. -/
def emptyLayers (level : ℕ) : Run (List (List ℕ)) :=
  let n := (level + 1) % 2 ^ 64
  if 24 * n < 2 ^ 63 then .ok (List.replicate n []) else .error .overflow

def recordNeighbors (r : Json) : Run (List (List ℕ)) :=
  match (r.get? "neighbors").bind asArray with
  | some a =>
      if isLayered a then .ok (layersOf a)
      else do
        let layers ← emptyLayers (recordLevel r)
        modifyAt layers 0 fun _ => positions a
  | none => emptyLayers (recordLevel r)

def loadNode (g : Graph (Emb F)) (r : Json) : Run (Graph (Emb F)) :=
  let emb := recordEmb N r
  if recordId r = "" then pure g
  else if h : emb.length = embDim then do
    let neighbors ← recordNeighbors r
    return { g with
      nodes := g.nodes ++ [⟨recordId r, fun i => emb.get (i.cast h.symm), r.strOr "lsh",
        recordLevel r, neighbors⟩]
      byId := g.byId.insert (recordId r) g.nodes.length }
  else pure g

def loadGraph (g : Graph (Emb F)) (v : Json) : Run (Graph (Emb F)) := do
  let g ← (docNodes v).foldlM (loadNode N) { g with nodes := [], byId := SortedMap.empty }
  return { g with
    entry := ((docEntry v).filter fun e => decide (e < g.nodes.length)).or (highest g.levels) }

/-! ## What a reader keeps -/

def Keeps (r : Json) : Prop := recordId r ≠ "" ∧ (recordEmb N r).length = embDim

instance (r : Json) : Decidable (Keeps N r) := by
  unfold Keeps
  infer_instance

def kept (v : Json) : List Json := (docNodes v).filter fun r => decide (Keeps N r)

def listed (r : Json) : List (List ℕ) :=
  match (r.get? "neighbors").bind asArray with
  | some a => if isLayered a then layersOf a else [positions a]
  | none => []

def listedIds (v r : Json) : List String :=
  (listed r).flatten.filterMap fun j => (docNodes v)[j]?.map recordId

def Fits (r : Json) : Prop :=
  match (r.get? "neighbors").bind asArray with
  | some a => isLayered a = true ∨ 24 * (recordLevel r + 1) < 2 ^ 63
  | none => 24 * ((recordLevel r + 1) % 2 ^ 64) < 2 ^ 63

theorem recordLevel_lt (r : Json) : recordLevel r < 2 ^ 64 := by
  unfold recordLevel
  cases hlevel : (r.get? "level").bind asU64 with
  | none => decide
  | some n =>
      rcases Option.bind_eq_some_iff.mp hlevel with ⟨x, -, hx⟩
      rw [Option.getD_some]
      unfold asU64 at hx
      split at hx
      · split_ifs at hx with hrange
        cases hx
        omega
      · cases hx

theorem recordNeighbors_spec {r : Json} (h : Fits r) :
    ∃ more, recordNeighbors r = .ok (listed r ++ List.replicate more []) := by
  unfold Fits at h
  unfold recordNeighbors listed emptyLayers
  cases hlists : (r.get? "neighbors").bind asArray with
  | none =>
      simp only [hlists] at h
      exact ⟨_, if_pos h⟩
  | some a =>
      simp only [hlists] at h
      dsimp only
      by_cases hlayered : isLayered a = true
      · rw [if_pos hlayered, if_pos hlayered]
        exact ⟨0, by simp⟩
      · have hroom := h.resolve_left hlayered
        have hsum : (recordLevel r + 1) % 2 ^ 64 = recordLevel r + 1 := by omega
        rw [if_neg hlayered, if_neg hlayered, hsum, if_pos hroom]
        refine ⟨recordLevel r, ?_⟩
        have hindex : 0 < (List.replicate (recordLevel r + 1) ([] : List ℕ)).length := by simp
        dsimp only [bind, Except.bind]
        unfold modifyAt
        rw [if_pos hindex]
        rfl

theorem fits_of_recordNeighbors {r : Json} {lists : List (List ℕ)}
    (h : recordNeighbors r = .ok lists) : Fits r := by
  unfold Fits
  unfold recordNeighbors emptyLayers at h
  cases hlists : (r.get? "neighbors").bind asArray with
  | none =>
      simp only [hlists] at h ⊢
      split_ifs at h with hroom
      exact hroom
  | some a =>
      simp only [hlists] at h ⊢
      split_ifs at h with hlayered hroom
      · exact Or.inl hlayered
      · right
        have hlt := recordLevel_lt r
        have hindex : 0 < (List.replicate ((recordLevel r + 1) % 2 ^ 64) ([] : List ℕ)).length := by
          by_contra hnone
          have hmod : modifyAt (List.replicate ((recordLevel r + 1) % 2 ^ 64) ([] : List ℕ)) 0
              (fun _ => positions a) = .ok lists := h
          unfold modifyAt at hmod
          rw [if_neg hnone] at hmod
          cases hmod
        rw [List.length_replicate] at hindex
        omega
      · cases h

/-! ## What a reader has of the records so far -/

structure Represents (r : Json) (n : Node (Emb F)) : Prop where
  id : n.id = recordId r
  emb : List.ofFn n.emb = recordEmb N r
  lsh : n.lsh = r.strOr "lsh"
  level : n.level = recordLevel r
  neighbors : recordNeighbors r = .ok n.neighbors

structure Loaded (rs : List Json) (g : Graph (Emb F)) : Prop where
  nodes : List.Forall₂ (Represents N) rs g.nodes
  byId : g.byId = indexed g.ids

theorem indexed_concat (ids : List String) (id : String) :
    indexed (ids ++ [id]) = (indexed ids).insert id ids.length := by
  unfold indexed
  rw [List.zipIdx_append, List.foldl_append, Nat.zero_add]
  rfl

section Loading

variable {N} {g g' : Graph (Emb F)} {r : Json} {rs done : List Json} {v : Json}

theorem Represents.unique {n n' : Node (Emb F)} (h : Represents N r n)
    (h' : Represents N r n') : n = n' := by
  have hemb : n.emb = n'.emb := List.ofFn_injective (h.emb.trans h'.emb.symm)
  have hlists : n.neighbors = n'.neighbors :=
    Except.ok.inj (h.neighbors.symm.trans h'.neighbors)
  have hid := h.id.trans h'.id.symm
  have hlsh := h.lsh.trans h'.lsh.symm
  have hlevel := h.level.trans h'.level.symm
  cases n
  cases n'
  dsimp only at hemb hlists hid hlsh hlevel
  subst hemb hlists hid hlsh hlevel
  rfl

theorem Loaded.concat (h : Loaded N done g) {n : Node (Emb F)} (hn : Represents N r n) :
    Loaded N (done ++ [r])
      { g with nodes := g.nodes ++ [n], byId := g.byId.insert n.id g.nodes.length } where
  nodes := List.rel_append h.nodes (List.Forall₂.cons hn List.Forall₂.nil)
  byId := by
    have hids : (g.nodes ++ [n]).map Node.id = g.ids ++ [n.id] := List.map_append
    have hlength : g.ids.length = g.nodes.length := List.length_map ..
    unfold Graph.ids
    dsimp only
    rw [hids, indexed_concat, hlength, h.byId]

theorem loadNode_cases (h : Loaded N done g) (r : Json) :
    (¬Keeps N r ∧ loadNode N g r = .ok g) ∨
      (Keeps N r ∧ Fits r ∧ ∃ g', loadNode N g r = .ok g' ∧ Loaded N (done ++ [r]) g') ∨
      (Keeps N r ∧ ¬Fits r ∧ ∃ e, loadNode N g r = .error e) := by
  unfold loadNode
  dsimp only
  by_cases hid : recordId r = ""
  · rw [if_pos hid]
    exact Or.inl ⟨fun hkeeps => hkeeps.1 hid, rfl⟩
  · rw [if_neg hid]
    by_cases hlength : (recordEmb N r).length = embDim
    · rw [dif_pos hlength]
      right
      cases hlists : recordNeighbors r with
      | error e =>
          refine Or.inr ⟨⟨hid, hlength⟩, ?_, e, rfl⟩
          intro hfits
          rcases recordNeighbors_spec hfits with ⟨more, hmore⟩
          rw [hlists] at hmore
          cases hmore
      | ok lists =>
          refine Or.inl ⟨⟨hid, hlength⟩, fits_of_recordNeighbors hlists, _, rfl, h.concat ?_⟩
          refine ⟨rfl, ?_, rfl, rfl, hlists⟩
          apply List.ext_get
          · rw [List.length_ofFn, hlength]
          · intro i hi hi'
            simp
    · rw [dif_neg hlength]
      exact Or.inl ⟨fun hkeeps => hlength hkeeps.2, rfl⟩

theorem loadNodes_spec (h : Loaded N done g) (rs : List Json) :
    ((∀ r ∈ rs, Keeps N r → Fits r) ∧ ∃ g', rs.foldlM (loadNode N) g = .ok g' ∧
      Loaded N (done ++ rs.filter fun r => decide (Keeps N r)) g') ∨
    ((¬∀ r ∈ rs, Keeps N r → Fits r) ∧ ∃ e, rs.foldlM (loadNode N) g = .error e) := by
  induction rs generalizing g done with
  | nil =>
      left
      refine ⟨fun r hr => absurd hr List.not_mem_nil, g, rfl, ?_⟩
      rw [List.filter_nil, List.append_nil]
      exact h
  | cons r rs ih =>
      rw [List.foldlM_cons, List.forall_mem_cons]
      rcases loadNode_cases h r with ⟨hout, hsame⟩ | ⟨hin, hfits, g', hread, hloaded⟩ |
        ⟨hin, hbad, e, he⟩
      · rw [hsame, List.filter_cons_of_neg (by simpa using hout)]
        have hfirst : (Keeps N r → Fits r) ↔ True := iff_true_intro fun hin => absurd hin hout
        rw [hfirst, true_and]
        exact ih h
      · rw [hread, List.filter_cons_of_pos (by simpa using hin)]
        have hfirst : (Keeps N r → Fits r) ↔ True := iff_true_intro fun _ => hfits
        rw [hfirst, true_and]
        have hrest := ih hloaded
        rw [List.append_assoc] at hrest
        exact hrest
      · right
        rw [he]
        exact ⟨fun hall => hbad (hall.1 hin), e, rfl⟩

theorem mem_kept : r ∈ kept N v ↔ r ∈ docNodes v ∧ Keeps N r := by
  unfold kept
  rw [List.mem_filter, decide_eq_true_iff]

theorem loadGraph_spec (g : Graph (Emb F)) (v : Json) :
    ((∀ r ∈ kept N v, Fits r) ∧ ∃ g', loadGraph N g v = .ok g' ∧ Loaded N (kept N v) g' ∧
      g'.entry = ((docEntry v).filter fun e => decide (e < g'.nodes.length)).or
        (highest g'.levels)) ∨
    ((¬∀ r ∈ kept N v, Fits r) ∧ ∃ e, loadGraph N g v = .error e) := by
  have hempty : Loaded N [] ({ g with nodes := [], byId := SortedMap.empty } : Graph (Emb F)) :=
    ⟨List.Forall₂.nil, rfl⟩
  have hfits : (∀ r ∈ kept N v, Fits r) ↔ ∀ r ∈ docNodes v, Keeps N r → Fits r := by
    constructor
    · intro h r hr hkeeps
      exact h r (mem_kept.mpr ⟨hr, hkeeps⟩)
    · intro h r hr
      exact h r (mem_kept.mp hr).1 (mem_kept.mp hr).2
  rw [hfits]
  unfold loadGraph
  rcases loadNodes_spec hempty (docNodes v) with ⟨hall, g', hread, hloaded⟩ | ⟨hbad, e, he⟩
  · left
    rw [hread]
    exact ⟨hall, _, rfl, ⟨hloaded.nodes, hloaded.byId⟩, rfl⟩
  · right
    rw [he]
    exact ⟨hbad, e, rfl⟩

section Records

variable {i : ℕ} {n : Node (Emb F)}

theorem Loaded.map_eq (h : Loaded N rs g) {α : Type} {read : Json → α} {field : Node (Emb F) → α}
    (hfield : ∀ r n, Represents N r n → field n = read r) :
    g.nodes.map field = rs.map read := by
  have hmaps : List.Forall₂ Eq (rs.map read) (g.nodes.map field) :=
    List.rel_map (fun r n hrn => (hfield r n hrn).symm) h.nodes
  rw [List.forall₂_eq_eq_eq] at hmaps
  exact hmaps.symm

theorem Loaded.ids (h : Loaded N rs g) : g.ids = rs.map recordId :=
  h.map_eq fun _ _ hrn => hrn.id

theorem Loaded.levels (h : Loaded N rs g) : g.levels = rs.map recordLevel :=
  h.map_eq fun _ _ hrn => hrn.level

theorem Loaded.record (h : Loaded N rs g) (hn : g.nodes[i]? = some n) :
    ∃ r, rs[i]? = some r ∧ Represents N r n := by
  rcases List.getElem?_eq_some_iff.mp hn with ⟨hi, rfl⟩
  have hi' : i < rs.length := by
    rw [h.nodes.length_eq]
    exact hi
  exact ⟨rs[i], List.getElem?_eq_getElem hi', h.nodes.get hi' hi⟩

theorem Loaded.node (h : Loaded N rs g) (hr : rs[i]? = some r) :
    ∃ n, g.nodes[i]? = some n ∧ Represents N r n := by
  rcases List.getElem?_eq_some_iff.mp hr with ⟨hi, rfl⟩
  have hi' : i < g.nodes.length := by
    rw [← h.nodes.length_eq]
    exact hi
  exact ⟨g.nodes[i], List.getElem?_eq_getElem hi', h.nodes.get hi hi'⟩

theorem Represents.lists (h : Represents N r n) :
    ∃ more, n.neighbors = listed r ++ List.replicate more [] := by
  rcases recordNeighbors_spec (fits_of_recordNeighbors h.neighbors) with ⟨more, hmore⟩
  rw [h.neighbors] at hmore
  exact ⟨more, Except.ok.inj hmore⟩

end Records

end Loading

end Hnsw

end GrServer
