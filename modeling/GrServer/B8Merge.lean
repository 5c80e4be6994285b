import GrServer.GuardedRun
import GrServer.Json
import GrServer.MapMerge
import GrServer.Text

/-!
# Merging the gateway's B8 payloads

A session's gateway payload is merged into the one that stands.  Depth keys are
held for the edge: a payload that is of the cdn and not of the edge does not
replace them.  The two classes are read off two marker keys, and a payload that
names the cdn as its path without the other marker is of both.
-/

namespace GrServer

open Json Text SortedMap

namespace B8Merge

/-! ## The merge -/

def isEmptyValue (v : Json) : Bool :=
  v.isNull || v.asStr = some ""

def pathKind (fields : Fields) : Option String :=
  (fields.get? "b8_path_kind").bind asStr

def incIsEdge (inc : Fields) : Bool :=
  pathKind inc = some "edge" || !inc.contains "b8_via_cdn"

def incIsCdn (inc : Fields) : Bool :=
  inc.contains "b8_via_cdn" || pathKind inc = some "cdn"

def depthKey (k : String) : Bool :=
  startsWith k "tcp_" || startsWith k "tls_" ||
    (["ja4", "h2_fingerprint", "client_tcp_rtt", "client_tcp_rtt_us",
      "protocol_fp_source", "tcp_info_available", "tcp_saved_syn"]).contains k

def pathMarkers : List String :=
  ["b8_via_cdn", "b8_path_kind", "b8_dual"]

def prevKey (k : String) : String := k ++ "_prev"

/-- A marker that stands is moved to its `_prev` key. -/
def keepPrev (fields : Fields) (k : String) : Fields :=
  match fields.get? k with
  | some prev => fields.insert (prevKey k) prev
  | none => fields

def mergeB8Field (isEdge isCdn : Bool) (fields : Fields) (entry : String × Json) : Fields :=
  let (k, v) := entry
  if isEmptyValue v then fields
  else if depthKey k then
    if isCdn && fields.contains k && !isEdge then fields else fields.insert k v
  else if pathMarkers.contains k then (keepPrev fields k).insert k v
  else fields.insert k v

def tagB8 (isEdge isCdn : Bool) (fields : Fields) : Fields :=
  let fields :=
    if (fields.contains "b8_via_cdn" || fields.contains "b8_via_cdn_prev") && isEdge then
      fields.insert "b8_edge_enriched" (.bool true)
    else fields
  if isCdn then fields.insert "b8_cdn_joined" (.bool true) else fields

def mergeB8Fields (fields inc : Fields) : Fields :=
  tagB8 (incIsEdge inc) (incIsCdn inc)
    (inc.entries.foldl (mergeB8Field (incIsEdge inc) (incIsCdn inc)) fields)

def fieldsOf (payload : Json) : Option Fields :=
  (payload.get? "fields").bind asObject

def mergeB8Payload (existing incoming : Json) : Json :=
  let fields := (fieldsOf existing).getD SortedMap.empty
  let fields := ((fieldsOf incoming).map (mergeB8Fields fields)).getD fields
  match existing.asObject with
  | some out =>
      let out := out.insert "fields" (ofFields fields)
      let out := ((incoming.get? "inject_path").map (out.insertNew "inject_path")).getD out
      ofFields ((out.insert "early" (.bool true)).insert "merged" (.bool true))
  | none => incoming

/-! ## What a merge does to one key -/

def supplied (fields : Fields) (k : String) : Option Json :=
  (fields.get? k).filter fun v => !isEmptyValue v

theorem supplied_of_none {fields : Fields} {k : String} (h : fields.get? k = none) :
    supplied fields k = none := by
  unfold supplied
  rw [h]
  rfl

theorem supplied_of_some {fields : Fields} {k : String} {v : Json}
    (h : fields.get? k = some v) :
    supplied fields k = if isEmptyValue v then none else some v := by
  unfold supplied
  rw [h]
  cases hempty : isEmptyValue v <;> simp [hempty]

def held (isEdge isCdn : Bool) (k : String) : Bool :=
  depthKey k && isCdn && !isEdge

def prevKeys : List String := pathMarkers.map prevKey

def tagKeys : List String := ["b8_edge_enriched", "b8_cdn_joined"]

section Loop

variable (isEdge isCdn : Bool)

theorem keepPrev_other {k j : String} (fields : Fields) (hj : j ≠ prevKey k) :
    (keepPrev fields k).get? j = fields.get? j := by
  unfold keepPrev
  cases fields.get? k with
  | none => rfl
  | some prev => exact get?_insert_of_ne hj prev

theorem keepPrev_prev (fields : Fields) (k : String) :
    (keepPrev fields k).get? (prevKey k) = (fields.get? k).or (fields.get? (prevKey k)) := by
  unfold keepPrev
  cases fields.get? k with
  | none => rfl
  | some prev => exact get?_insert_self fields (prevKey k) prev

theorem mergeB8Field_other {k j : String} (fields : Fields) (v : Json) (hne : k ≠ j)
    (hprev : k ∈ pathMarkers → j ≠ prevKey k) :
    (mergeB8Field isEdge isCdn fields (k, v)).get? j = fields.get? j := by
  have hinsert : (fields.insert k v).get? j = fields.get? j :=
    get?_insert_of_ne (Ne.symm hne) v
  unfold mergeB8Field
  dsimp only
  split_ifs with hempty hdepth hheld hmarker
  · rfl
  · rfl
  · exact hinsert
  · rw [get?_insert_of_ne (Ne.symm hne)]
    exact keepPrev_other fields (hprev (List.contains_iff_mem.mp hmarker))
  · exact hinsert

theorem mergeB8Field_self {k : String} (fields : Fields) (v : Json) :
    (mergeB8Field isEdge isCdn fields (k, v)).get? k =
      if isEmptyValue v ∨ held isEdge isCdn k ∧ fields.contains k then fields.get? k
      else some v := by
  unfold mergeB8Field held
  dsimp only
  by_cases hempty : isEmptyValue v = true
  · simp [hempty]
  by_cases hdepth : depthKey k = true
  · cases isCdn <;> cases isEdge <;> by_cases hhas : fields.contains k = true <;>
      simp [hempty, hdepth, hhas]
  · by_cases hmarker : k ∈ pathMarkers <;> simp [hempty, hdepth, hmarker]

theorem not_marker_of_prev : ∀ m ∈ pathMarkers, ∀ k ∈ pathMarkers, k ≠ prevKey m := by
  decide

theorem prevKey_inj : ∀ m ∈ pathMarkers, ∀ k ∈ pathMarkers, prevKey m = prevKey k → m = k := by
  decide

theorem lt_prevKey : ∀ m ∈ pathMarkers, m < prevKey m := by
  decide

theorem loop_get? {k : String} (hk : k ∉ prevKeys) (inc fields : Fields) :
    (inc.entries.foldl (mergeB8Field isEdge isCdn) fields).get? k =
      (supplied inc k).elim (fields.get? k) fun v =>
        if held isEdge isCdn k ∧ fields.contains k then fields.get? k else some v := by
  have hother : ∀ (m : Fields) (j : String) (v : Json), j ≠ k →
      (mergeB8Field isEdge isCdn m (j, v)).get? k = m.get? k := by
    intro m j v hne
    apply mergeB8Field_other isEdge isCdn m v hne
    rintro hj rfl
    exact hk (List.mem_map_of_mem hj)
  have hself : ∀ (m : Fields) (v : Json), (mergeB8Field isEdge isCdn m (k, v)).get? k =
      if isEmptyValue v ∨ held isEdge isCdn k ∧ (m.get? k).isSome then m.get? k
      else some v :=
    fun m v => mergeB8Field_self isEdge isCdn m v
  rw [get?_foldl (g := fun old v =>
    if isEmptyValue v ∨ held isEdge isCdn k ∧ old.isSome then old else some v) hother hself]
  cases hget : inc.get? k with
  | none =>
      rw [supplied_of_none hget]
      rfl
  | some v =>
      rw [supplied_of_some hget, Option.elim_some]
      by_cases hempty : isEmptyValue v = true
      · simp [hempty]
      · simp only [hempty, Bool.false_eq_true, false_or, if_false, Option.elim_some]
        rfl

theorem marker_not_depth : ∀ m ∈ pathMarkers,
    depthKey m = false ∧ depthKey (prevKey m) = false := by
  decide

theorem mergeB8Field_prev {m : String} (hm : m ∈ pathMarkers) (fields : Fields) (v : Json) :
    (mergeB8Field isEdge isCdn fields (m, v)).get? (prevKey m) =
      if isEmptyValue v then fields.get? (prevKey m)
      else (fields.get? m).or (fields.get? (prevKey m)) := by
  have hne : prevKey m ≠ m := (lt_prevKey m hm).ne'
  unfold mergeB8Field
  dsimp only
  rw [(marker_not_depth m hm).1, if_neg Bool.false_ne_true,
    if_pos (List.contains_iff_mem.mpr hm)]
  split_ifs
  · rfl
  · rw [get?_insert_of_ne hne, keepPrev_prev]

def suppliedIn (entries : List (String × Json)) (k : String) : Option Json :=
  (Assoc.find? k entries).filter fun v => !isEmptyValue v

theorem suppliedIn_cons_of_ne {j k : String} (hne : k ≠ j) (v : Json)
    (rest : List (String × Json)) : suppliedIn ((j, v) :: rest) k = suppliedIn rest k := by
  simp [suppliedIn, Assoc.find?, hne]

theorem suppliedIn_cons_self (k : String) (v : Json) (rest : List (String × Json)) :
    suppliedIn ((k, v) :: rest) k = if isEmptyValue v then none else some v := by
  by_cases hempty : isEmptyValue v = true <;> simp [suppliedIn, Assoc.find?, hempty]

theorem suppliedIn_of_not_mem {k : String} {entries : List (String × Json)}
    (hnot : k ∉ Assoc.keys entries) : suppliedIn entries k = none := by
  unfold suppliedIn
  cases hfind : Assoc.find? k entries with
  | none => rfl
  | some v =>
      have hsome : (Assoc.find? k entries).isSome := by
        rw [hfind]
        rfl
      exact absurd (Assoc.find?_isSome.mp hsome) hnot

theorem loop_prev {m : String} (hm : m ∈ pathMarkers) (inc fields : Fields) :
    (inc.entries.foldl (mergeB8Field isEdge isCdn) fields).get? (prevKey m) =
      (supplied inc (prevKey m)).or
        (((supplied inc m).bind fun _ => fields.get? m).or (fields.get? (prevKey m))) := by
  have hlt : m < prevKey m := lt_prevKey m hm
  obtain ⟨entries, hsorted⟩ := inc
  change _ = (suppliedIn entries (prevKey m)).or
    (((suppliedIn entries m).bind fun _ => fields.get? m).or (fields.get? (prevKey m)))
  induction entries generalizing fields with
  | nil => rfl
  | cons entry rest ih =>
      obtain ⟨j, v⟩ := entry
      obtain ⟨hhead, htail⟩ := List.pairwise_cons.mp hsorted
      have hrest := ih (mergeB8Field isEdge isCdn fields (j, v)) htail
      change (rest.foldl _ (mergeB8Field isEdge isCdn fields (j, v))).get? _ = _
      rw [show rest.foldl (mergeB8Field isEdge isCdn) _ = _ from rfl, hrest]
      by_cases hjm : j = m
      · subst hjm
        have hgone : suppliedIn rest j = none := by
          apply suppliedIn_of_not_mem
          intro hmem
          exact lt_irrefl j (hhead j hmem)
        rw [hgone, mergeB8Field_prev isEdge isCdn hm, suppliedIn_cons_of_ne hlt.ne',
          suppliedIn_cons_self]
        split_ifs <;> rfl
      by_cases hjprev : j = prevKey m
      · subst hjprev
        have hgone : suppliedIn rest (prevKey m) = none := by
          apply suppliedIn_of_not_mem
          intro hmem
          exact lt_irrefl _ (hhead _ hmem)
        have hpassed : suppliedIn rest m = none := by
          apply suppliedIn_of_not_mem
          intro hmem
          exact lt_asymm hlt (hhead m hmem)
        have hheld : held isEdge isCdn (prevKey m) = false := by
          unfold held
          rw [(marker_not_depth m hm).2]
          rfl
        rw [hgone, hpassed, mergeB8Field_self, hheld, suppliedIn_cons_self,
          suppliedIn_cons_of_ne hlt.ne, hpassed]
        by_cases hempty : isEmptyValue v = true <;> simp [hempty]
      · have hprev : (mergeB8Field isEdge isCdn fields (j, v)).get? (prevKey m) =
            fields.get? (prevKey m) := by
          apply mergeB8Field_other isEdge isCdn fields v hjprev
          intro hmarker heq
          exact hjm (prevKey_inj m hm j hmarker heq).symm
        have hmarker : (mergeB8Field isEdge isCdn fields (j, v)).get? m = fields.get? m := by
          apply mergeB8Field_other isEdge isCdn fields v hjm
          intro hmarker
          exact not_marker_of_prev j hmarker m hm
        rw [hprev, hmarker, suppliedIn_cons_of_ne (Ne.symm hjprev),
          suppliedIn_cons_of_ne (Ne.symm hjm)]

end Loop

end B8Merge

end GrServer
