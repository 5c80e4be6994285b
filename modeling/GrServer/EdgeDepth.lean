import GrServer.B8Merge

/-!
# Edge depth over a run of B8 payloads

A payload is of the edge when nothing marks it as the cdn's.  The merge keeps the
edge's depth against a payload it takes for the cdn's alone; one that names the
cdn as its path but lacks the other marker writes over it, and so does one that
has both the marker and the path of the edge.  Apart from that, an empty marker
moved to a `_prev` key can take the place of a value there.
-/

namespace GrServer

open Json Text SortedMap

namespace B8Merge

/-! ## Runs -/

structure B8Payload where
  json : Json
  fields : Fields
  hasFields : fieldsOf json = some fields

def B8Payload.isCdn (p : B8Payload) : Bool := incIsCdn p.fields

structure B8Run where
  stored : Option Json
  history : List B8Payload

def B8Run.start : B8Run := ⟨none, []⟩

def B8Run.add (r : B8Run) (p : B8Payload) : B8Run where
  stored := some (match r.stored with
    | some existing => mergeB8Payload existing p.json
    | none => p.json)
  history := r.history ++ [p]

def B8Run.fields (r : B8Run) : Fields :=
  (r.stored.bind fieldsOf).getD SortedMap.empty

def IsDepth (k : String) : Prop :=
  depthKey k = true ∨ startsWith k "client_tcp_rtt" = true

instance : DecidablePred IsDepth := fun k => by
  unfold IsDepth
  infer_instance

def lastEdge (k : String) (history : List B8Payload) : Option Json :=
  ((history.filter fun p => !p.isCdn).filterMap fun p => supplied p.fields k).getLast?

/-- What a merge owes: the edge's depth, and a value wherever one was. -/
structure EdgeKept (r : B8Run) (p : B8Payload) : Prop where
  depth : ∀ k, IsDepth k → ∀ v, lastEdge k (r.add p).history = some v →
    (r.add p).fields.get? k = some v
  kept : ∀ k, (supplied r.fields k).isSome → (supplied (r.add p).fields k).isSome

structure HeldBack (r : B8Run) (p : B8Payload) : Prop where
  /-- What the cdn has for a key of the edge's depth is the edge's value, or is
  held off by the markers. -/
  depth : p.isCdn = true → ∀ k, IsDepth k → ∀ v w, lastEdge k r.history = some v →
    supplied p.fields k = some w →
      w = v ∨ incIsEdge p.fields = false ∧ depthKey k = true
  /-- An empty marker is not moved over a value. -/
  prev : ∀ m ∈ pathMarkers, (supplied p.fields m).isSome → (r.fields.get? m).isSome →
    supplied r.fields m = none → (supplied r.fields (prevKey m)).isSome →
      (supplied p.fields (prevKey m)).isSome

theorem tagB8_get? (isEdge isCdn : Bool) (fields : Fields) (k : String) :
    (tagB8 isEdge isCdn fields).get? k = fields.get? k ∨
      k ∈ tagKeys ∧ (tagB8 isEdge isCdn fields).get? k = some (.bool true) := by
  have htag (fields : Fields) {j : String} (hj : j ∈ tagKeys) :
      (fields.insert j (.bool true)).get? k = fields.get? k ∨
        k ∈ tagKeys ∧ (fields.insert j (.bool true)).get? k = some (.bool true) := by
    by_cases hk : k = j
    · subst hk
      exact Or.inr ⟨hj, get?_insert_self fields k _⟩
    · exact Or.inl (get?_insert_of_ne hk _)
  unfold tagB8
  extract_lets enriched
  have henriched : enriched.get? k = fields.get? k ∨
      k ∈ tagKeys ∧ enriched.get? k = some (.bool true) := by
    unfold enriched
    split_ifs
    · exact htag fields (by decide)
    · exact Or.inl rfl
  split_ifs
  · rcases htag enriched (j := "b8_cdn_joined") (by decide) with hsame | htrue
    · rw [hsame]
      exact henriched
    · exact Or.inr htrue
  · exact henriched

theorem depth_not_prev {k : String} (h : IsDepth k) : k ∉ prevKeys ∧ k ∉ tagKeys := by
  have hprev : ∀ j ∈ prevKeys, ¬ IsDepth j := by decide
  have htag : ∀ j ∈ tagKeys, ¬ IsDepth j := by decide
  constructor
  · intro hk
    exact hprev k hk h
  · intro hk
    exact htag k hk h

theorem mergeB8Fields_depth {k : String} (hk : IsDepth k) (fields inc : Fields) :
    (mergeB8Fields fields inc).get? k =
      (supplied inc k).elim (fields.get? k) fun v =>
        if held (incIsEdge inc) (incIsCdn inc) k ∧ fields.contains k then fields.get? k
        else some v := by
  obtain ⟨hprev, htag⟩ := depth_not_prev hk
  rw [← loop_get? _ _ hprev]
  rcases tagB8_get? (incIsEdge inc) (incIsCdn inc)
    (inc.entries.foldl (mergeB8Field (incIsEdge inc) (incIsCdn inc)) fields) k with
    hsame | ⟨hmem, _⟩
  · exact hsame
  · exact absurd hmem htag

theorem supplied_congr {fields fields' : Fields} {k : String}
    (h : fields'.get? k = fields.get? k) : supplied fields' k = supplied fields k := by
  unfold supplied
  rw [h]

theorem supplied_eq_some {fields : Fields} {k : String} {v : Json} :
    supplied fields k = some v ↔ fields.get? k = some v ∧ isEmptyValue v = false := by
  unfold supplied
  rw [Option.filter_eq_some_iff, Bool.not_eq_true']

theorem mergeB8Fields_kept {fields inc : Fields}
    (hprev : ∀ m ∈ pathMarkers, (supplied inc m).isSome → (fields.get? m).isSome →
      supplied fields m = none → (supplied fields (prevKey m)).isSome →
        (supplied inc (prevKey m)).isSome)
    {k : String} (hk : (supplied fields k).isSome) :
    (supplied (mergeB8Fields fields inc) k).isSome := by
  let merged := inc.entries.foldl (mergeB8Field (incIsEdge inc) (incIsCdn inc)) fields
  have hloop : (supplied merged k).isSome := by
    by_cases hmem : k ∈ prevKeys
    · obtain ⟨m, hm, rfl⟩ := List.mem_map.mp hmem
      have hmerged : merged.get? (prevKey m) = _ := loop_prev _ _ hm inc fields
      cases hown : supplied inc (prevKey m) with
      | some v =>
          rw [hown, Option.some_or] at hmerged
          rw [supplied_eq_some.mpr ⟨hmerged, (supplied_eq_some.mp hown).2⟩]
          rfl
      | none =>
          rw [hown, Option.none_or] at hmerged
          cases hmarker : supplied inc m with
          | none =>
              rw [hmarker, Option.bind_none, Option.none_or] at hmerged
              rw [supplied_congr hmerged]
              exact hk
          | some w =>
              rw [hmarker, Option.bind_some] at hmerged
              cases hold : fields.get? m with
              | none =>
                  rw [hold, Option.none_or] at hmerged
                  rw [supplied_congr hmerged]
                  exact hk
              | some old =>
                  rw [hold, Option.some_or] at hmerged
                  cases hempty : isEmptyValue old with
                  | false =>
                      rw [supplied_eq_some.mpr ⟨hmerged, hempty⟩]
                      rfl
                  | true =>
                      have hnone : supplied fields m = none := by
                        rw [supplied_of_some hold, hempty]
                        rfl
                      have hsome := hprev m hm (by rw [hmarker]; rfl) (by rw [hold]; rfl)
                        hnone hk
                      rw [hown] at hsome
                      cases hsome
    · have hmerged : merged.get? k = _ := loop_get? _ _ hmem inc fields
      cases hinc : supplied inc k with
      | none =>
          rw [hinc, Option.elim_none] at hmerged
          rw [supplied_congr hmerged]
          exact hk
      | some v =>
          rw [hinc, Option.elim_some] at hmerged
          split_ifs at hmerged
          · rw [supplied_congr hmerged]
            exact hk
          · rw [supplied_eq_some.mpr ⟨hmerged, (supplied_eq_some.mp hinc).2⟩]
            rfl
  rcases tagB8_get? (incIsEdge inc) (incIsCdn inc) merged k with hsame | ⟨_, htrue⟩
  · exact (supplied_congr hsame).symm ▸ hloop
  · have htag : supplied (mergeB8Fields fields inc) k = some (.bool true) :=
      supplied_eq_some.mpr ⟨htrue, rfl⟩
    rw [htag]
    rfl

theorem mergeB8Fields_lost {fields inc : Fields} {m : String} (hm : m ∈ pathMarkers)
    (hinc : (supplied inc m).isSome) (hold : (fields.get? m).isSome)
    (hempty : supplied fields m = none) (hown : supplied inc (prevKey m) = none) :
    supplied (mergeB8Fields fields inc) (prevKey m) = none := by
  have htag : prevKey m ∉ tagKeys := by
    have hnone : ∀ m ∈ pathMarkers, prevKey m ∉ tagKeys := by decide
    exact hnone m hm
  obtain ⟨w, hw⟩ := Option.isSome_iff_exists.mp hinc
  obtain ⟨old, hget⟩ := Option.isSome_iff_exists.mp hold
  have hmerged := loop_prev (incIsEdge inc) (incIsCdn inc) hm inc fields
  rw [hown, hw, hget, Option.none_or, Option.bind_some, Option.some_or] at hmerged
  have hsame : (mergeB8Fields fields inc).get? (prevKey m) = fields.get? m := by
    rw [hget, ← hmerged]
    rcases tagB8_get? (incIsEdge inc) (incIsCdn inc)
      (inc.entries.foldl (mergeB8Field (incIsEdge inc) (incIsCdn inc)) fields) (prevKey m) with
      hsame | ⟨hmem, _⟩
    · exact hsame
    · exact absurd hmem htag
  unfold supplied at hempty ⊢
  rw [hsame]
  exact hempty

/-! ## One step -/

structure Standing (r : B8Run) : Prop where
  shape : r.stored = none ∧ r.history = [] ∨
    ∃ members, r.stored = some (.obj members) ∧ fieldsOf (.obj members) = some r.fields
  depth : ∀ k, IsDepth k → ∀ v, lastEdge k r.history = some v → r.fields.get? k = some v

theorem B8Payload.members (p : B8Payload) : ∃ members, p.json = .obj members := by
  have h := p.hasFields
  unfold fieldsOf at h
  cases hjson : p.json with
  | obj members => exact ⟨members, rfl⟩
  | _ =>
      rw [hjson] at h
      cases h

theorem mergeB8Payload_fields {members : List (String × Json)} {fields : Fields}
    (h : fieldsOf (.obj members) = some fields) (p : B8Payload) :
    ∃ members' fields', mergeB8Payload (.obj members) p.json = .obj members' ∧
      fieldsOf (.obj members') = some fields' ∧
      ∀ k, fields'.get? k = (mergeB8Fields fields p.fields).get? k := by
  let merged := mergeB8Fields fields p.fields
  let out := (SortedMap.ofEntries members).insert "fields" (ofFields merged)
  let withPath := ((p.json.get? "inject_path").map (out.insertNew "inject_path")).getD out
  have hpayload : mergeB8Payload (.obj members) p.json =
      ofFields ((withPath.insert "early" (.bool true)).insert "merged" (.bool true)) := by
    unfold mergeB8Payload
    rw [h, p.hasFields]
    rfl
  have hpath : withPath.get? "fields" = some (ofFields merged) := by
    unfold withPath
    cases p.json.get? "inject_path" with
    | none => exact get?_insert_self _ _ _
    | some path =>
        change (out.insertNew "inject_path" path).get? "fields" = _
        rw [get?_insertNew_of_ne (by decide)]
        exact get?_insert_self _ _ _
  refine ⟨_, SortedMap.ofEntries merged.entries, hpayload, ?_, ?_⟩
  · unfold fieldsOf
    change (SortedMap.get? _ "fields").bind asObject = _
    rw [get?_insert_of_ne (by decide), get?_insert_of_ne (by decide), hpath]
    rfl
  · intro k
    exact get?_ofEntries _ k

theorem B8Run.fields_of_stored {r : B8Run} {payload : Json} {fields : Fields}
    (h : r.stored = some payload) (hfields : fieldsOf payload = some fields) :
    r.fields = fields := by
  unfold B8Run.fields
  rw [h, Option.bind_some, hfields]
  rfl

theorem Standing.add_cases {r : B8Run} (h : Standing r) (p : B8Payload) :
    (∃ members, (r.add p).stored = some (.obj members) ∧
      fieldsOf (.obj members) = some (r.add p).fields) ∧
    (r.history = [] ∧ r.fields = SortedMap.empty ∧ (r.add p).fields = p.fields ∨
      ∀ k, (r.add p).fields.get? k = (mergeB8Fields r.fields p.fields).get? k) := by
  rcases h.shape with ⟨hstored, hhistory⟩ | ⟨members, hstored, hfields⟩
  · obtain ⟨members, hjson⟩ := p.members
    have hadd : (r.add p).stored = some p.json := by
      unfold B8Run.add
      rw [hstored]
    have hnew := B8Run.fields_of_stored hadd p.hasFields
    refine ⟨⟨members, hjson ▸ hadd, ?_⟩, Or.inl ⟨hhistory, ?_, hnew⟩⟩
    · rw [hnew, ← hjson]
      exact p.hasFields
    · unfold B8Run.fields
      rw [hstored]
      rfl
  · obtain ⟨members', fields', hmerge, hfields', hget⟩ := mergeB8Payload_fields hfields p
    have hadd : (r.add p).stored = some (.obj members') := by
      unfold B8Run.add
      rw [hstored]
      exact congrArg some hmerge
    have hnew := B8Run.fields_of_stored hadd hfields'
    refine ⟨⟨members', hadd, ?_⟩, Or.inr ?_⟩
    · rw [hnew]
      exact hfields'
    · rw [hnew]
      exact hget

theorem lastEdge_add (k : String) (r : B8Run) (p : B8Payload) :
    lastEdge k (r.add p).history =
      if p.isCdn then lastEdge k r.history
      else (supplied p.fields k).or (lastEdge k r.history) := by
  unfold lastEdge B8Run.add
  rw [List.filter_append, List.filterMap_append]
  cases hcdn : p.isCdn with
  | true => simp [hcdn]
  | false =>
      cases hown : supplied p.fields k with
      | none => simp [hcdn, hown]
      | some v => simp [hcdn, hown]

theorem Standing.add_depth {r : B8Run} (h : Standing r) (p : B8Payload) {k : String}
    (hk : IsDepth k) (hold : (lastEdge k r.history).isSome ∨ (supplied p.fields k).isSome) :
    (r.add p).fields.get? k = (supplied p.fields k).elim (r.fields.get? k) fun v =>
      if held (incIsEdge p.fields) p.isCdn k ∧ r.fields.contains k then r.fields.get? k
      else some v := by
  rcases (h.add_cases p).2 with ⟨hhistory, hempty, hnew⟩ | hmerged
  · rw [hnew, hempty]
    cases hown : supplied p.fields k with
    | some v =>
        rw [Option.elim_some, if_neg (by simp [contains])]
        exact (supplied_eq_some.mp hown).1
    | none =>
        rw [hhistory, hown] at hold
        rcases hold with hlast | hsome
        · cases hlast
        · cases hsome
  · rw [hmerged]
    exact mergeB8Fields_depth hk r.fields p.fields

theorem EdgeKept.standing {r : B8Run} {p : B8Payload} (h : Standing r) (hkept : EdgeKept r p) :
    Standing (r.add p) where
  shape := Or.inr (h.add_cases p).1
  depth := hkept.depth

theorem EdgeKept.heldBack {r : B8Run} (h : Standing r) {p : B8Payload}
    (hkept : EdgeKept r p) : HeldBack r p := by
  constructor
  · intro hcdn k hk v w hlast hown
    have hstays : (r.add p).fields.get? k = some v := by
      apply hkept.depth k hk
      rw [lastEdge_add, hcdn]
      exact hlast
    have hold : r.fields.get? k = some v := h.depth k hk v hlast
    rw [h.add_depth p hk (Or.inl (Option.isSome_of_mem hlast)), hown, hcdn,
      Option.elim_some] at hstays
    by_cases hheld : held (incIsEdge p.fields) true k = true
    · right
      unfold held at hheld
      simpa [and_comm] using hheld
    · left
      rw [if_neg (fun hboth => hheld hboth.1)] at hstays
      exact Option.some.inj hstays
  · intro m hm hinc hold hempty hprev
    by_contra hown
    have hown : supplied p.fields (prevKey m) = none :=
      Option.not_isSome_iff_eq_none.mp hown
    have hafter := hkept.kept (prevKey m) hprev
    rcases (h.add_cases p).2 with ⟨_, hnothing, _⟩ | hmerged
    · rw [hnothing] at hold
      cases hold
    · rw [supplied_congr (hmerged _), mergeB8Fields_lost hm hinc hold hempty hown] at hafter
      cases hafter

theorem HeldBack.edgeKept {r : B8Run} (h : Standing r) {p : B8Payload}
    (hheld : HeldBack r p) : EdgeKept r p := by
  constructor
  · intro k hk v hlast
    rw [lastEdge_add] at hlast
    cases hcdn : p.isCdn with
    | true =>
        rw [hcdn, if_pos rfl] at hlast
        have hold : r.fields.get? k = some v := h.depth k hk v hlast
        rw [h.add_depth p hk (Or.inl (Option.isSome_of_mem hlast)), hold]
        cases hown : supplied p.fields k with
        | none => rfl
        | some w =>
            rw [Option.elim_some]
            rcases hheld.depth hcdn k hk v w hlast hown with rfl | ⟨hedge, hdepth⟩
            · exact ite_self _
            · apply if_pos
              constructor
              · unfold held
                rw [hdepth, hcdn, hedge]
                rfl
              · unfold contains
                rw [hold]
                rfl
    | false =>
        rw [hcdn, if_neg Bool.false_ne_true] at hlast
        cases hown : supplied p.fields k with
        | none =>
            rw [hown, Option.none_or] at hlast
            rw [h.add_depth p hk (Or.inl (Option.isSome_of_mem hlast)), hown]
            exact h.depth k hk v hlast
        | some w =>
            rw [hown, Option.some_or] at hlast
            have hheld : held (incIsEdge p.fields) false k = false := by
              unfold held
              rw [Bool.and_false, Bool.false_and]
            rw [h.add_depth p hk (Or.inr (Option.isSome_of_mem hown)), hown, hcdn,
              Option.elim_some, hheld, if_neg (by simp)]
            exact hlast
  · intro k hsome
    rcases (h.add_cases p).2 with ⟨_, hnothing, _⟩ | hmerged
    · rw [hnothing] at hsome
      cases hsome
    · rw [supplied_congr (hmerged k)]
      exact mergeB8Fields_kept hheld.prev hsome

theorem edgeKept_iff {r : B8Run} (h : Standing r) (p : B8Payload) :
    EdgeKept r p ↔ HeldBack r p :=
  ⟨EdgeKept.heldBack h, HeldBack.edgeKept h⟩

theorem standing_start : Standing B8Run.start where
  shape := Or.inl ⟨rfl, rfl⟩
  depth := by
    intro k _ v hv
    cases hv

/-- The edge's depth stays over a run exactly where each payload is held back. -/
theorem edge_depth_kept_iff (payloads : List B8Payload) :
    Along B8Run.add EdgeKept B8Run.start payloads ↔
      Along B8Run.add HeldBack B8Run.start payloads := by
  apply Along.iff_of_steps (I := Standing) (G := fun _ _ => True)
  · intro r p hr _
    exact edgeKept_iff hr p
  · intro r p hr _ hkept
    exact hkept.standing hr
  · exact along_of_forall fun _ _ _ => trivial
  · exact standing_start

def payloadOf (fields : Fields) : B8Payload where
  json := ofFields (SortedMap.empty.insert "fields" (ofFields fields))
  fields := SortedMap.ofEntries fields.entries
  hasFields := rfl

def edgePayload : B8Payload :=
  payloadOf (SortedMap.ofEntries [("b8_path_kind", .str "edge"), ("ja4", .str "t13d_edge")])

/-- The path is the cdn's, and no header has set `b8_via_cdn`. -/
def cdnPayload : B8Payload :=
  payloadOf (SortedMap.ofEntries [("b8_path_kind", .str "cdn"), ("ja4", .str "t13d_cdn")])

theorem cdn_path_displaces_edge :
    edgePayload.isCdn = false ∧ cdnPayload.isCdn = true ∧
      (runFrom B8Run.add B8Run.start [edgePayload, cdnPayload]).fields.get? "ja4" =
        some (.str "t13d_cdn") ∧
      ¬ Along B8Run.add EdgeKept B8Run.start [edgePayload, cdnPayload] := by
  have hvalue : (runFrom B8Run.add B8Run.start [edgePayload, cdnPayload]).fields.get? "ja4" =
      some (.str "t13d_cdn") := by
    decide
  refine ⟨by decide, by decide, hvalue, ?_⟩
  intro halong
  have hlast : lastEdge "ja4" [edgePayload, cdnPayload] = some (.str "t13d_edge") := by
    decide
  have hkept := halong.2.1.depth "ja4" (by decide) _ hlast
  rw [show (((B8Run.start.add edgePayload).add cdnPayload).fields.get? "ja4") = _ from hvalue]
    at hkept
  revert hkept
  decide

end B8Merge

end GrServer
