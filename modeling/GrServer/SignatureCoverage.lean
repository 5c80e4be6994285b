import GrServer.ReleaseSignature

/-!
# What a release signature covers

Which members of an artifact or a manifest the root signature pins down, and
which messages of one kind can be read as messages of another.
-/

namespace GrServer

open Json Text DigestParts

namespace ReleaseSignature

theorem barLine_eq_iff {parts others : List String} (h : parts ≠ []) (h' : others ≠ []) :
    barLine parts = barLine others ↔ pieces parts = pieces others := by
  unfold barLine pieces
  have hsep : "|".toList = ['|'] := rfl
  rw [asBytes_inj, ← String.toList_inj, String.toList_intercalate, String.toList_intercalate,
    hsep, Delimited.join_eq_join_iff (by simpa using h') (by simpa using h)]

/-- The members that the newer artifact message lists. -/
structure BoundMembers where
  name : String
  version : String
  sha256 : String
  asset : String
  abi : UInt32
  requiresMajor : UInt64
  minRuntimeMinor : UInt64
  maxRuntimeMinor : Option UInt64
  domain : String
  deriving DecidableEq

def ModuleArtifact.bound (a : ModuleArtifact) : BoundMembers :=
  ⟨a.name, a.version, a.sha256, a.asset, a.abi, a.requiresMajor, a.minRuntimeMinor,
    a.maxRuntimeMinor, a.domain⟩

theorem maxMinorText_inj {x y : Option UInt64} (h : maxMinorText x = maxMinorText y) : x = y := by
  have hnone : ∀ v : UInt64, maxMinorText (some v) ≠ maxMinorText none := by
    intro v hv
    have htext : v.toNat.repr = "none" := hv
    have hdigit := isDigit_of_mem_repr_nat (c := 'n') (n := v.toNat) (by rw [htext]; decide)
    exact absurd hdigit (by decide)
  cases x with
  | none =>
      cases y with
      | none => rfl
      | some v => exact absurd h.symm (hnone v)
  | some u =>
      cases y with
      | none => exact absurd h (hnone u)
      | some v =>
          have htext : u.toNat.repr = v.toNat.repr := h
          rw [UInt64.toNat_inj.mp (Nat.repr_inj.mp htext)]

theorem artifactParts_inj {a b : ModuleArtifact} :
    artifactParts a = artifactParts b ↔ a.bound = b.bound := by
  constructor
  · intro h
    simp only [artifactParts, List.cons.injEq, and_true, true_and, Nat.repr_inj,
      UInt32.toNat_inj, UInt64.toNat_inj] at h
    obtain ⟨hname, hversion, hsha, hasset, habi, hmajor, hmin, hmax, hdomain⟩ := h
    simp only [ModuleArtifact.bound, BoundMembers.mk.injEq]
    exact ⟨hname, hversion, hsha, hasset, habi, hmajor, hmin, maxMinorText_inj hmax, hdomain⟩
  · intro h
    simp only [ModuleArtifact.bound, BoundMembers.mk.injEq] at h
    obtain ⟨hname, hversion, hsha, hasset, habi, hmajor, hmin, hmax, hdomain⟩ := h
    simp only [artifactParts, hname, hversion, hsha, hasset, habi, hmajor, hmin, hmax, hdomain]

/-! ## Bodies -/

theorem jsonNat_inj {m n : ℕ} : jsonNat m = jsonNat n ↔ m = n := by
  simp [jsonNat, ofInt]

theorem jsonStr?_inj {s t : Option String} : jsonStr? s = jsonStr? t ↔ s = t := by
  cases s <;> cases t <;> simp [jsonStr?]

theorem maxMinorJson_inj {x y : Option UInt64} : maxMinorJson x = maxMinorJson y ↔ x = y := by
  cases x <;> cases y <;> simp [maxMinorJson, jsonNat, ofInt, UInt64.toNat_inj]

theorem ofFields_ofEntries_get? (entries : List (String × Json)) (k : String) :
    (ofFields (SortedMap.ofEntries entries)).get? k = Assoc.find? k entries := by
  rw [get?_ofFields, SortedMap.get?_ofEntries]

theorem member_eq {entries others : List (String × Json)}
    (h : ofFields (SortedMap.ofEntries entries) = ofFields (SortedMap.ofEntries others))
    (k : String) : Assoc.find? k entries = Assoc.find? k others := by
  rw [← ofFields_ofEntries_get?, ← ofFields_ofEntries_get?, h]

theorem runtimeJson_inj {r s : RuntimeManifest} : runtimeJson r = runtimeJson s ↔ r = s := by
  constructor
  · intro h
    have hversion := member_eq h "version"
    have habi := member_eq h "abi"
    have hasset := member_eq h "asset"
    have hsha := member_eq h "sha256"
    simp [Assoc.find?, jsonNat_inj, jsonStr?_inj, UInt32.toNat_inj] at hversion habi hasset hsha
    cases r
    cases s
    simp_all
  · intro h
    rw [h]

theorem moduleJson_inj {a b : ModuleArtifact} : moduleJson a = moduleJson b ↔ a.bound = b.bound := by
  constructor
  · intro h
    have hname := member_eq h "name"
    have hversion := member_eq h "version"
    have habi := member_eq h "abi"
    have hmajor := member_eq h "requires_major"
    have hmin := member_eq h "min_runtime_minor"
    have hmax := member_eq h "max_runtime_minor"
    have hasset := member_eq h "asset"
    have hsha := member_eq h "sha256"
    have hdomain := member_eq h "domain"
    simp [Assoc.find?, jsonNat_inj, maxMinorJson_inj, UInt32.toNat_inj, UInt64.toNat_inj]
      at hname hversion habi hmajor hmin hmax hasset hsha hdomain
    simp only [ModuleArtifact.bound, BoundMembers.mk.injEq]
    exact ⟨hname, hversion, hsha, hasset, habi, hmajor, hmin, hmax, hdomain⟩
  · intro h
    simp only [ModuleArtifact.bound, BoundMembers.mk.injEq] at h
    obtain ⟨hname, hversion, hsha, hasset, habi, hmajor, hmin, hmax, hdomain⟩ := h
    simp only [moduleJson, hname, hversion, hsha, hasset, habi, hmajor, hmin, hmax, hdomain]

def FeManifest.covered (f : FeManifest) : String × String := (f.asset, f.sha256)

theorem feJson_inj {f g : Option FeManifest} :
    feJson f = feJson g ↔ f.map FeManifest.covered = g.map FeManifest.covered := by
  cases f with
  | none =>
      cases g with
      | none => simp
      | some g => simp [feJson, ofFields]
  | some f =>
      cases g with
      | none => simp [feJson, ofFields]
      | some g =>
          simp only [Option.map_some, Option.some.injEq, FeManifest.covered, Prod.mk.injEq]
          constructor
          · intro h
            have hasset := member_eq h "asset"
            have hsha := member_eq h "sha256"
            simp [Assoc.find?] at hasset hsha
            exact ⟨hasset, hsha⟩
          · intro h
            simp only [feJson, h.1, h.2]

theorem treeJson_inj {t u : TreeManifest} : treeJson t = treeJson u ↔ t = u := by
  constructor
  · intro h
    have hmember : ∀ t : TreeManifest, (treeJson t).get? "epoch" = t.epoch.map Json.str ∧
        (treeJson t).get? "files" =
          some (.obj (t.files.entries.map fun file => (file.1, .str file.2))) := by
      intro t
      cases hepoch : t.epoch <;> simp [treeJson, hepoch, Assoc.find?]
    have hepoch : t.epoch.map Json.str = u.epoch.map Json.str := by
      rw [← (hmember t).1, ← (hmember u).1, h]
    have hfiles := (hmember t).2.symm.trans ((congrArg (fun v => v.get? "files") h).trans (hmember u).2)
    have hentries : t.files.entries = u.files.entries := by
      have hinj : Function.Injective fun file : String × String => (file.1, Json.str file.2) := by
        intro a b hab
        simp only [Prod.mk.injEq, Json.str.injEq] at hab
        exact Prod.ext hab.1 hab.2
      exact List.map_injective_iff.mpr hinj (Json.obj.inj (Option.some.inj hfiles))
    have hepochs : t.epoch = u.epoch :=
      Option.map_injective (fun _ _ h => Json.str.inj h) hepoch
    cases t with
    | mk epoch files =>
        cases u with
        | mk epoch' files' =>
            cases files
            cases files'
            simp_all
  · intro h
    rw [h]

theorem get?_insertSome (map : Fields) (k j : String) (v : Option Json) :
    (insertSome map k v).get? j = if j = k then v.or (map.get? k) else map.get? j := by
  cases v with
  | none =>
      by_cases hjk : j = k <;> simp [insertSome, hjk]
  | some v => simp [insertSome, SortedMap.get?_insert]

/-- The members that the root signature of a manifest pins down. -/
structure SameCovered (m m' : ReleaseManifest) : Prop where
  product : m.product = m'.product
  channel : m.channel = m'.channel
  buildId : m.buildId.getD "" = m'.buildId.getD ""
  releasePubkey : m.releasePubkey.getD "" = m'.releasePubkey.getD ""
  runtime : m.runtime = m'.runtime
  cli : m.cli = m'.cli
  fe : m.fe.map FeManifest.covered = m'.fe.map FeManifest.covered
  feTree : m.feTree = m'.feTree
  adminTree : m.adminTree = m'.adminTree
  specTree : m.specTree = m'.specTree
  modules : m.modules.map ModuleArtifact.bound = m'.modules.map ModuleArtifact.bound

theorem manifestSignMap_get? (m : ReleaseManifest) :
    (manifestSignMap m).get? "product" = some (.str m.product) ∧
      (manifestSignMap m).get? "channel" = some (.str m.channel) ∧
      (manifestSignMap m).get? "build_id" = some (.str (m.buildId.getD "")) ∧
      (manifestSignMap m).get? "release_pubkey" = some (.str (m.releasePubkey.getD "")) ∧
      (manifestSignMap m).get? "runtime" = some (runtimeJson m.runtime) ∧
      (manifestSignMap m).get? "fe" = some (feJson m.fe) ∧
      (manifestSignMap m).get? "fe_tree" = m.feTree.map treeJson ∧
      (manifestSignMap m).get? "admin_tree" = m.adminTree.map treeJson ∧
      (manifestSignMap m).get? "spec_tree" = m.specTree.map treeJson ∧
      (manifestSignMap m).get? "cli" = m.cli.map runtimeJson ∧
      (manifestSignMap m).get? "modules" = some (.arr (m.modules.map moduleJson)) ∧
      (manifestSignMap m).get? "data_tree" = none := by
  simp [manifestSignMap, SortedMap.get?_insert, get?_insertSome]

theorem map_moduleJson_inj {l l' : List ModuleArtifact} (h : l.map moduleJson = l'.map moduleJson) :
    l.map ModuleArtifact.bound = l'.map ModuleArtifact.bound := by
  induction l generalizing l' with
  | nil =>
      cases l' with
      | nil => rfl
      | cons b rest => cases h
  | cons a rest ih =>
      cases l' with
      | nil => cases h
      | cons b rest' =>
          rw [List.map_cons, List.map_cons, List.cons.injEq] at h
          rw [List.map_cons, List.map_cons, moduleJson_inj.mp h.1, ih h.2]

theorem sameCovered_of_body {m m' : ReleaseManifest} (h : manifestBody m = manifestBody m') :
    SameCovered m m' := by
  have hget : ∀ k, (manifestSignMap m).get? k = (manifestSignMap m').get? k := by
    intro k
    have hmember := congrArg (fun v => v.get? k) h
    exact hmember
  obtain ⟨hproduct, hchannel, hbuild, hkey, hruntime, hfe, hfeTree, hadmin, hspec, hcli,
    hmodules, -⟩ := manifestSignMap_get? m
  obtain ⟨hproduct', hchannel', hbuild', hkey', hruntime', hfe', hfeTree', hadmin', hspec', hcli',
    hmodules', -⟩ := manifestSignMap_get? m'
  have htree : Function.Injective treeJson := fun _ _ h => treeJson_inj.mp h
  have hrun : Function.Injective runtimeJson := fun _ _ h => runtimeJson_inj.mp h
  constructor
  · simpa [hproduct, hproduct'] using hget "product"
  · simpa [hchannel, hchannel'] using hget "channel"
  · simpa [hbuild, hbuild'] using hget "build_id"
  · simpa [hkey, hkey'] using hget "release_pubkey"
  · simpa [hruntime, hruntime', runtimeJson_inj] using hget "runtime"
  · have hsame := hget "cli"
    rw [hcli, hcli'] at hsame
    exact Option.map_injective hrun hsame
  · simpa [hfe, hfe', feJson_inj] using hget "fe"
  · have hsame := hget "fe_tree"
    rw [hfeTree, hfeTree'] at hsame
    exact Option.map_injective htree hsame
  · have hsame := hget "admin_tree"
    rw [hadmin, hadmin'] at hsame
    exact Option.map_injective htree hsame
  · have hsame := hget "spec_tree"
    rw [hspec, hspec'] at hsame
    exact Option.map_injective htree hsame
  · have hsame := hget "modules"
    rw [hmodules, hmodules'] at hsame
    exact map_moduleJson_inj (Json.arr.inj (Option.some.inj hsame))

theorem manifestBodyData_ne {m m' : ReleaseManifest} {t : TreeManifest} (h : m.dataTree = some t) :
    manifestBodyData m ≠ manifestBody m' := by
  intro hsame
  have hget := congrArg (fun v => v.get? "data_tree") hsame
  obtain ⟨-, -, -, -, -, -, -, -, -, -, -, hnone⟩ := manifestSignMap_get? m'
  simp [manifestBodyData, manifestBody, h, hnone] at hget

/-! ## Artifacts under one signature -/

def Signed (env : OtaEnv) (root msg : Bytes) (sig : String) : Prop :=
  verifyBytes env root msg sig = .ok ()

theorem signed_iff {env : OtaEnv} {root msg : Bytes} {sig : String} :
    Signed env root msg sig ↔ root.length = 32 ∧ env.keyFromBytes root = .ok () ∧
      ∃ raw, env.b64Decode sig = some raw ∧ raw.length = 64 ∧
        env.ed25519Verify root msg raw = true := by
  unfold Signed verifyBytes
  by_cases hroot : root.length = 32
  · cases hkey : env.keyFromBytes root with
    | error e => simp [hroot]
    | ok u =>
        cases hraw : env.b64Decode sig with
        | none => simp [hroot]
        | some raw =>
            by_cases hlen : raw.length = 64
            · cases hverify : env.ed25519Verify root msg raw <;> simp [hroot, hlen, hverify]
            · simp [hroot, hlen]
  · simp [hroot]

/-- A signature of the key is one of a single message. -/
def BindsMessages (env : OtaEnv) (root : Bytes) : Prop :=
  ∀ msg msg' sig, Signed env root msg sig → Signed env root msg' sig → msg = msg'

def signedForms (art : ModuleArtifact) : List (List String) :=
  [artifactParts art, legacyParts art]

def ModuleArtifact.unlisted (a : ModuleArtifact) :
    String × UInt32 × UInt64 × UInt64 × Option UInt64 × String :=
  (a.asset, a.abi, a.requiresMajor, a.minRuntimeMinor, a.maxRuntimeMinor, a.domain)

/-- A bar inside a field makes a signed line of the one a line of the other. -/
def BarsShifted (env : OtaEnv) (root : Bytes) (a b : ModuleArtifact) : Prop :=
  ∃ parts ∈ signedForms a, ∃ others ∈ signedForms b,
    Signed env root (barLine parts) a.sig ∧ Shifted parts others

/-- The legacy line is signed, and what it leaves out differs. -/
def LegacyGap (env : OtaEnv) (root : Bytes) (a b : ModuleArtifact) : Prop :=
  Signed env root (artifactSignMessageV1 a) a.sig ∧ legacyParts a = legacyParts b ∧
    a.unlisted ≠ b.unlisted

section Artifacts

variable {env : OtaEnv} {root : Bytes} {a b : ModuleArtifact}

theorem bound_eq_iff :
    a.bound = b.bound ↔ legacyParts a = legacyParts b ∧ a.unlisted = b.unlisted := by
  simp only [ModuleArtifact.bound, BoundMembers.mk.injEq, legacyParts, List.cons.injEq, and_true,
    ModuleArtifact.unlisted, Prod.mk.injEq]
  constructor
  · rintro ⟨hname, hversion, hsha, hrest⟩
    exact ⟨⟨hname, hversion, hsha⟩, hrest⟩
  · rintro ⟨⟨hname, hversion, hsha⟩, hrest⟩
    exact ⟨hname, hversion, hsha, hrest⟩

theorem pieces_append (parts others : List String) :
    pieces (parts ++ others) = pieces parts ++ pieces others := by
  simp [pieces, List.flatMap_append]

theorem pieces_artifactParts_ne (h : legacyParts a = legacyParts b) :
    pieces (artifactParts a) ≠ pieces (legacyParts b) := by
  intro hpieces
  have hparts : artifactParts a = ["v2"] ++ legacyParts b ++ (artifactParts a).drop 4 := by
    rw [← h]
    rfl
  have hhead : 1 ≤ (pieces ["v2"]).length := by decide
  have hlen := congrArg List.length hpieces
  rw [hparts, pieces_append, pieces_append, List.length_append, List.length_append] at hlen
  omega

theorem signedForms_ne_nil {parts : List String} (h : parts ∈ signedForms a) : parts ≠ [] := by
  rcases List.mem_pair.mp h with rfl | rfl
  · exact List.cons_ne_nil _ _
  · exact List.cons_ne_nil _ _

theorem signed_of_accepted (h : verifyArtifactSig env root a = .ok ()) :
    ∃ parts ∈ signedForms a, Signed env root (barLine parts) a.sig := by
  unfold verifyArtifactSig at h
  cases hnew : verifyBytes env root (artifactSignMessage a) a.sig with
  | ok u => exact ⟨artifactParts a, by simp [signedForms], hnew⟩
  | error e =>
      rw [hnew] at h
      exact ⟨legacyParts a, by simp [signedForms], h⟩

theorem bound_eq_iff_of_accepted (hbinds : BindsMessages env root)
    (ha : verifyArtifactSig env root a = .ok ()) (hb : verifyArtifactSig env root b = .ok ())
    (hsig : a.sig = b.sig) :
    a.bound = b.bound ↔ ¬ BarsShifted env root a b ∧ ¬ LegacyGap env root a b := by
  constructor
  · intro hbound
    obtain ⟨hlegacy, hunlisted⟩ := bound_eq_iff.mp hbound
    have hnew := artifactParts_inj.mpr hbound
    refine ⟨?_, fun hgap => hgap.2.2 hunlisted⟩
    rintro ⟨parts, hparts, others, hothers, -, hne, hpieces⟩
    rcases List.mem_pair.mp hparts with rfl | rfl
    · rcases List.mem_pair.mp hothers with rfl | rfl
      · exact hne hnew
      · exact pieces_artifactParts_ne hlegacy hpieces
    · rcases List.mem_pair.mp hothers with rfl | rfl
      · exact pieces_artifactParts_ne hlegacy.symm hpieces.symm
      · exact hne hlegacy
  · rintro ⟨hshifted, hgap⟩
    obtain ⟨parts, hparts, hsigned⟩ := signed_of_accepted ha
    obtain ⟨others, hothers, hsigned'⟩ := signed_of_accepted hb
    rw [← hsig] at hsigned'
    have hline := hbinds _ _ _ hsigned hsigned'
    have hpieces := (barLine_eq_iff (signedForms_ne_nil hparts) (signedForms_ne_nil hothers)).mp hline
    have hsame : parts = others := by
      by_contra hne
      exact hshifted ⟨parts, hparts, others, hothers, hsigned, hne, hpieces⟩
    rcases List.mem_pair.mp hparts with rfl | rfl
    · rcases List.mem_pair.mp hothers with rfl | rfl
      · exact artifactParts_inj.mp hsame
      · exact absurd (congrArg List.length hsame) (by simp [artifactParts, legacyParts])
    · rcases List.mem_pair.mp hothers with rfl | rfl
      · exact absurd (congrArg List.length hsame) (by simp [artifactParts, legacyParts])
      · have hunlisted : a.unlisted = b.unlisted := by
          by_contra hne
          exact hgap ⟨hsigned, hsame, hne⟩
        exact bound_eq_iff.mpr ⟨hsame, hunlisted⟩

end Artifacts

/-- Two manifests that describe one release for one architecture. -/
structure SameRelease (m m' : ReleaseManifest) : Prop where
  product : m.product = m'.product
  channel : m.channel = m'.channel
  buildId : m.buildId = m'.buildId
  releasePubkey : m.releasePubkey = m'.releasePubkey
  runtime : m.runtime = m'.runtime
  cli : m.cli = m'.cli
  fe : m.fe.map FeManifest.covered = m'.fe.map FeManifest.covered
  feTree : m.feTree = m'.feTree
  adminTree : m.adminTree = m'.adminTree
  specTree : m.specTree = m'.specTree
  dataTree : m.dataTree = m'.dataTree
  modules : m.modules.map ModuleArtifact.bound = m'.modules.map ModuleArtifact.bound
  arch : m.arch = m'.arch

/-- The members that the root signature of the body leaves open agree. -/
structure OpenMembersAgree (m m' : ReleaseManifest) : Prop where
  dataTree : m.dataTree = m'.dataTree
  arch : m.arch = m'.arch
  /-- No build id reads like an empty one. -/
  buildId : m.buildId = none ↔ m'.buildId = none
  releasePubkey : m.releasePubkey = none ↔ m'.releasePubkey = none

section Manifests

variable {env : OtaEnv} {root : Bytes} {m m' : ReleaseManifest} {rk rk' : Option Bytes}

theorem eq_of_getD {s t : Option String} (h : s.getD "" = t.getD "") (hnone : s = none ↔ t = none) :
    s = t := by
  cases s with
  | none => exact (hnone.mp rfl).symm
  | some s =>
      cases t with
      | none => exact absurd (hnone.mpr rfl) (by simp)
      | some t => simpa using h

theorem signed_of_chain (h : verifyManifestChain env root m = .ok rk) :
    ∃ sig, m.sig = some sig ∧ Signed env root (manifestSignMessage env m) sig := by
  unfold verifyManifestChain verifyManifestSig at h
  cases hsig : nonEmpty m.sig with
  | none => simp [hsig, bind, Except.bind] at h
  | some sig =>
      have hm : m.sig = some sig := (Option.filter_eq_some_iff.mp hsig).1
      refine ⟨sig, hm, ?_⟩
      cases hverify : verifyBytes env root (manifestSignMessage env m) sig with
      | ok u => exact hverify
      | error e => simp [hsig, hverify, bind, Except.bind] at h

theorem sameRelease_iff_of_accepted (hbinds : BindsMessages env root)
    (hbody : manifestSignMessage env m = manifestSignMessage env m' →
      manifestBody m = manifestBody m')
    (hm : verifyManifestChain env root m = .ok rk)
    (hm' : verifyManifestChain env root m' = .ok rk') (hsig : m.sig = m'.sig) :
    SameRelease m m' ↔ OpenMembersAgree m m' := by
  constructor
  · intro h
    exact ⟨h.dataTree, h.arch, by rw [h.buildId], by rw [h.releasePubkey]⟩
  · intro h
    obtain ⟨sig, hsome, hsigned⟩ := signed_of_chain hm
    obtain ⟨sig', hsome', hsigned'⟩ := signed_of_chain hm'
    have hsame : sig = sig' := by
      rw [hsome, hsome'] at hsig
      exact Option.some.inj hsig
    subst hsame
    have hcovered := sameCovered_of_body (hbody (hbinds _ _ _ hsigned hsigned'))
    exact
      { product := hcovered.product
        channel := hcovered.channel
        buildId := eq_of_getD hcovered.buildId h.buildId
        releasePubkey := eq_of_getD hcovered.releasePubkey h.releasePubkey
        runtime := hcovered.runtime
        cli := hcovered.cli
        fe := hcovered.fe
        feTree := hcovered.feTree
        adminTree := hcovered.adminTree
        specTree := hcovered.specTree
        dataTree := h.dataTree
        modules := hcovered.modules
        arch := h.arch }

end Manifests

/-! ## Messages of different kinds -/

/-- What the root key signs. -/
inductive Statement where
  | artifactV1 (art : ModuleArtifact)
  | artifactV2 (art : ModuleArtifact)
  | certificate (version buildId pubkeyHex : String)
  | manifest (m : ReleaseManifest)
  | data (m : ReleaseManifest) (tree : TreeManifest)

inductive Purpose where
  | artifactV1
  | artifactV2
  | certificate
  | manifest
  | data
  deriving DecidableEq

namespace Statement

def purpose : Statement → Purpose
  | artifactV1 _ => .artifactV1
  | artifactV2 _ => .artifactV2
  | certificate .. => .certificate
  | manifest _ => .manifest
  | data .. => .data

def message (env : OtaEnv) : Statement → Bytes
  | artifactV1 art => artifactSignMessageV1 art
  | artifactV2 art => artifactSignMessage art
  | certificate version buildId pubkeyHex => releaseCertMessage version buildId pubkeyHex
  | manifest m => manifestSignMessage env m
  | data m tree => manifestSignMessageData env { m with dataTree := some tree }

def bodies : Statement → List Json
  | manifest m => [manifestBody m]
  | data m tree => [manifestBodyData { m with dataTree := some tree }]
  | _ => []

end Statement

def ReadsLike (env : OtaEnv) (art : ModuleArtifact) : Statement → Prop
  | .artifactV1 _ => False
  | .artifactV2 other => pieces (legacyParts art) = pieces (artifactParts other)
  | .certificate version buildId pubkeyHex =>
      pieces (legacyParts art) = pieces (certParts version buildId pubkeyHex)
  | .manifest m => barLine (legacyParts art) = env.toVec (manifestBody m)
  | .data m tree =>
      barLine (legacyParts art) =
        env.toVec (manifestBodyData { m with dataTree := some tree })

/-- One of the two is a legacy artifact line that reads like the other. -/
def LegacyConfusion (env : OtaEnv) (x y : Statement) : Prop :=
  (∃ art, x = .artifactV1 art ∧ ReadsLike env art y) ∨
    ∃ art, y = .artifactV1 art ∧ ReadsLike env art x

/-- `serde_json` on some objects: the text starts with a brace and determines
the value. -/
structure JsonText (env : OtaEnv) (values : List Json) : Prop where
  brace : ∀ v ∈ values, (env.toVec v).head? = some 123
  apart : ∀ v ∈ values, ∀ w ∈ values, env.toVec v = env.toVec w → v = w

theorem JsonText.mono {env : OtaEnv} {values others : List Json} (h : JsonText env values)
    (hsub : others ⊆ values) : JsonText env others where
  brace v hv := h.brace v (hsub hv)
  apart v hv w hw := h.apart v (hsub hv) w (hsub hw)

section Statements

variable {env : OtaEnv} {root : Bytes} {x y : Statement}

def Purpose.firstByte : Purpose → UInt8
  | artifactV1 => 0
  | artifactV2 => 118
  | certificate => 103
  | manifest => 123
  | data => 123

theorem Purpose.eq_or_of_firstByte {p q : Purpose} (h : p.firstByte = q.firstByte) :
    p = q ∨ p = manifest ∧ q = data ∨ p = data ∧ q = manifest := by
  cases p <;> cases q <;> simp_all [Purpose.firstByte]

theorem Statement.exists_legacy (h : x.purpose = .artifactV1) : ∃ art, x = .artifactV1 art := by
  cases x with
  | artifactV1 art => exact ⟨art, rfl⟩
  | _ => cases h

theorem Statement.exists_manifest (h : x.purpose = .manifest) : ∃ m, x = .manifest m := by
  cases x with
  | manifest m => exact ⟨m, rfl⟩
  | _ => cases h

theorem Statement.exists_data (h : x.purpose = .data) : ∃ m tree, x = .data m tree := by
  cases x with
  | data m tree => exact ⟨m, tree, rfl⟩
  | _ => cases h

theorem barLine_cons (p q : String) (ps : List String) :
    barLine (p :: q :: ps) = asBytes p ++ (asBytes "|" ++ barLine (q :: ps)) := by
  unfold barLine
  rw [String.intercalate_cons_cons, asBytes_append, asBytes_append, List.append_assoc]

theorem head?_message (hjson : JsonText env x.bodies) (h : x.purpose ≠ .artifactV1) :
    (x.message env).head? = some x.purpose.firstByte := by
  cases x with
  | artifactV1 art => exact absurd rfl h
  | artifactV2 art =>
      have hv2 : (asBytes "v2") = [118, 50] := by decide
      simp [Statement.message, artifactSignMessage, artifactParts, barLine_cons, hv2,
        Statement.purpose, Purpose.firstByte]
  | certificate version buildId pubkeyHex =>
      have hhead : (asBytes "gr-release-cert-v1").head? = some 103 := by decide
      simp only [Statement.message, releaseCertMessage, certParts, barLine_cons,
        Statement.purpose, Purpose.firstByte, List.head?_append, hhead, Option.some_or]
  | manifest m => exact hjson.brace _ (by simp [Statement.bodies])
  | data m tree => exact hjson.brace _ (by simp [Statement.bodies])

theorem message_ne (hjson : JsonText env (x.bodies ++ y.bodies))
    (hx : x.purpose ≠ .artifactV1) (hy : y.purpose ≠ .artifactV1) (hne : x.purpose ≠ y.purpose) :
    x.message env ≠ y.message env := by
  intro hsame
  have hxHead := head?_message (hjson.mono (List.subset_append_left _ _)) hx
  have hyHead := head?_message (hjson.mono (List.subset_append_right _ _)) hy
  rw [hsame, hyHead] at hxHead
  rcases Purpose.eq_or_of_firstByte (Option.some.inj hxHead) with
    heq | ⟨hyManifest, hxData⟩ | ⟨hyData, hxManifest⟩
  · exact hne heq.symm
  · obtain ⟨m, rfl⟩ := Statement.exists_manifest hyManifest
    obtain ⟨m', tree, rfl⟩ := Statement.exists_data hxData
    exact manifestBodyData_ne rfl
      (hjson.apart _ (by simp [Statement.bodies]) _ (by simp [Statement.bodies]) hsame)
  · obtain ⟨m, tree, rfl⟩ := Statement.exists_data hyData
    obtain ⟨m', rfl⟩ := Statement.exists_manifest hxManifest
    exact manifestBodyData_ne rfl
      (hjson.apart _ (by simp [Statement.bodies]) _ (by simp [Statement.bodies]) hsame.symm)

theorem legacy_message_eq_iff (art : ModuleArtifact) (h : y.purpose ≠ .artifactV1) :
    artifactSignMessageV1 art = y.message env ↔ ReadsLike env art y := by
  cases y with
  | artifactV1 other => exact absurd rfl h
  | artifactV2 other => exact barLine_eq_iff (List.cons_ne_nil _ _) (List.cons_ne_nil _ _)
  | certificate version buildId pubkeyHex =>
      exact barLine_eq_iff (List.cons_ne_nil _ _) (List.cons_ne_nil _ _)
  | manifest m => exact Iff.rfl
  | data m tree => exact Iff.rfl

theorem message_eq_iff (hjson : JsonText env (x.bodies ++ y.bodies))
    (hne : x.purpose ≠ y.purpose) :
    x.message env = y.message env ↔ LegacyConfusion env x y := by
  by_cases hx : x.purpose = .artifactV1
  · obtain ⟨art, rfl⟩ := Statement.exists_legacy hx
    have hy : y.purpose ≠ .artifactV1 := fun h => hne h.symm
    have hnot : ∀ other, y ≠ .artifactV1 other := fun other h => hy (by rw [h]; rfl)
    constructor
    · intro h
      exact Or.inl ⟨art, rfl, (legacy_message_eq_iff art hy).mp h⟩
    · intro h
      rcases h with ⟨other, hsame, hreads⟩ | ⟨other, hother, -⟩
      · cases hsame
        exact (legacy_message_eq_iff art hy).mpr hreads
      · exact absurd hother (hnot other)
  · by_cases hy : y.purpose = .artifactV1
    · obtain ⟨art, rfl⟩ := Statement.exists_legacy hy
      have hnot : ∀ other, x ≠ .artifactV1 other := fun other h => hx (by rw [h]; rfl)
      constructor
      · intro h
        exact Or.inr ⟨art, rfl, (legacy_message_eq_iff art hx).mp h.symm⟩
      · intro h
        rcases h with ⟨other, hother, -⟩ | ⟨other, hsame, hreads⟩
        · exact absurd hother (hnot other)
        · cases hsame
          exact ((legacy_message_eq_iff art hx).mpr hreads).symm
    · have hnot : ∀ other, x ≠ .artifactV1 other := fun other h => hx (by rw [h]; rfl)
      have hnot' : ∀ other, y ≠ .artifactV1 other := fun other h => hy (by rw [h]; rfl)
      refine iff_of_false (message_ne hjson hx hy hne) ?_
      rintro (⟨other, hother, -⟩ | ⟨other, hother, -⟩)
      · exact hnot other hother
      · exact hnot' other hother

end Statements

/-- What is accepted under one signature agrees, and a signature serves one
purpose. -/
structure Covered (env : OtaEnv) (root : Bytes) (a b : ModuleArtifact) (m m' : ReleaseManifest)
    (y : Statement) (sig : String) : Prop where
  artifacts : a.bound = b.bound
  manifests : SameRelease m m'
  purposes : ¬ Signed env root (y.message env) sig

section Coverage

variable {env : OtaEnv} {root : Bytes} {a b : ModuleArtifact} {m m' : ReleaseManifest}
  {rk rk' : Option Bytes} {x y : Statement} {sig : String}

/-- The signatures cover what is installed except for legacy artifact lines,
bars inside fields, and the members outside the signed body. -/
theorem covered_iff (hbinds : BindsMessages env root)
    (hjson : JsonText env (manifestBody m :: manifestBody m' :: (x.bodies ++ y.bodies)))
    (ha : verifyArtifactSig env root a = .ok ()) (hb : verifyArtifactSig env root b = .ok ())
    (hab : a.sig = b.sig)
    (hm : verifyManifestChain env root m = .ok rk)
    (hm' : verifyManifestChain env root m' = .ok rk') (hmm' : m.sig = m'.sig)
    (hx : Signed env root (x.message env) sig) (hxy : x.purpose ≠ y.purpose) :
    Covered env root a b m m' y sig ↔
      (¬ BarsShifted env root a b ∧ ¬ LegacyGap env root a b) ∧
        OpenMembersAgree m m' ∧ ¬ LegacyConfusion env x y := by
  have hartifacts := bound_eq_iff_of_accepted hbinds ha hb hab
  have hbody : manifestSignMessage env m = manifestSignMessage env m' →
      manifestBody m = manifestBody m' := hjson.apart _ (by simp) _ (by simp)
  have hmanifests := sameRelease_iff_of_accepted hbinds hbody hm hm' hmm'
  have hstatements : JsonText env (x.bodies ++ y.bodies) := by
    apply hjson.mono
    intro v hv
    exact List.mem_cons_of_mem _ (List.mem_cons_of_mem _ hv)
  have hpurposes : Signed env root (y.message env) sig ↔ LegacyConfusion env x y := by
    rw [← message_eq_iff hstatements hxy]
    constructor
    · intro hy
      exact hbinds _ _ _ hx hy
    · intro hsame
      rw [← hsame]
      exact hx
  constructor
  · intro h
    exact ⟨hartifacts.mp h.artifacts, hmanifests.mp h.manifests,
      fun hconfused => h.purposes (hpurposes.mpr hconfused)⟩
  · intro h
    exact ⟨hartifacts.mpr h.1, hmanifests.mpr h.2.1, fun hy => h.2.2 (hpurposes.mp hy)⟩

end Coverage

/-! ## Samples -/

def sampleRoot : Bytes := List.replicate 32 7

def lineSig : String := String.join (List.replicate 21 "AQEB") ++ "AQ=="

def bodySig : String := String.join (List.replicate 21 "AgIC") ++ "Ag=="

def artifactSample : ModuleArtifact where
  name := "analyze"
  version := "1.0.0"
  abi := 1
  requiresMajor := 6
  minRuntimeMinor := 0
  maxRuntimeMinor := none
  asset := "libanalyze.so"
  sha256 := "ab12"
  sig := lineSig
  sig2 := none
  domain := ""

def manifestSample : ReleaseManifest where
  product := "greenpng"
  channel := "stable"
  arch := none
  triple := none
  runtime := ⟨"6.0.21", 1, none, none⟩
  modules := []
  fe := none
  feTree := none
  adminTree := none
  specTree := none
  dataTree := none
  cli := none
  sig := some bodySig
  sigData := none
  buildId := none
  releasePubkey := none
  releaseCert := none

def manifestSampleText : Bytes := asBytes
  ("\x7b\"build_id\":\"\",\"channel\":\"stable\",\"fe\":null,\"modules\":[],\"product\":" ++
    "\"greenpng\",\"release_pubkey\":\"\",\"runtime\":\x7b\"abi\":1,\"asset\":null," ++
    "\"sha256\":null,\"version\":\"6.0.21\"\x7d\x7d")

def signedEnv (line : Bytes) : OtaEnv where
  b64Decode s :=
    if s = lineSig then some (List.replicate 64 1)
    else if s = bodySig then some (List.replicate 64 2)
    else none
  hexDecode _ := none
  keyFromBytes _ := .ok ()
  ed25519Verify _ msg raw :=
    raw = List.replicate 64 1 ∧ msg = line ∨ raw = List.replicate 64 2 ∧ msg = manifestSampleText
  toVec v := if v = manifestBody manifestSample then manifestSampleText else [123, 125]
  sha256Hex _ := ""

theorem signedEnv_binds (line : Bytes) : BindsMessages (signedEnv line) sampleRoot := by
  intro msg msg' sig h h'
  obtain ⟨-, -, raw, hraw, -, hverify⟩ := signed_iff.mp h
  obtain ⟨-, -, raw', hraw', -, hverify'⟩ := signed_iff.mp h'
  rw [hraw] at hraw'
  cases hraw'
  have hother : List.replicate 64 (1 : UInt8) ≠ List.replicate 64 2 := by decide
  rcases of_decide_eq_true hverify with ⟨hone, hmsg⟩ | ⟨htwo, hmsg⟩
  · rcases of_decide_eq_true hverify' with ⟨-, hmsg'⟩ | ⟨htwo, -⟩
    · rw [hmsg, hmsg']
    · exact absurd (hone.symm.trans htwo) hother
  · rcases of_decide_eq_true hverify' with ⟨hone, -⟩ | ⟨-, hmsg'⟩
    · exact absurd (hone.symm.trans htwo) hother
    · rw [hmsg, hmsg']

theorem line_signed (line : Bytes) : Signed (signedEnv line) sampleRoot line lineSig :=
  signed_iff.mpr ⟨List.length_replicate, rfl, List.replicate 64 1, rfl, List.length_replicate,
    decide_eq_true (Or.inl ⟨rfl, rfl⟩)⟩

theorem body_signed (line : Bytes) :
    Signed (signedEnv line) sampleRoot manifestSampleText bodySig := by
  have hother : bodySig ≠ lineSig := by decide
  have hraw : (signedEnv line).b64Decode bodySig = some (List.replicate 64 2) := by
    simp only [signedEnv, if_neg hother, if_true]
  have hverify : (signedEnv line).ed25519Verify sampleRoot manifestSampleText
      (List.replicate 64 2) = true := by
    simp [signedEnv]
  exact signed_iff.mpr ⟨List.length_replicate, rfl, List.replicate 64 2, hraw,
    List.length_replicate, hverify⟩

theorem manifestSample_accepted (line : Bytes) (triple : Option String) :
    verifyManifestChain (signedEnv line) sampleRoot { manifestSample with triple := triple } =
      .ok none := by
  have hbody : manifestSignMessage (signedEnv line) { manifestSample with triple := triple } =
      manifestSampleText := by
    simp [manifestSignMessage, signedEnv, manifestBody, manifestSignMap]
  have hsome : nonEmpty ({ manifestSample with triple := triple } : ReleaseManifest).sig =
      some bodySig := rfl
  have hsig : verifyManifestSig (signedEnv line) sampleRoot { manifestSample with triple := triple }
      = .ok () := by
    unfold verifyManifestSig
    rw [hsome, hbody]
    exact body_signed line
  unfold verifyManifestChain
  rw [hsig]
  rfl

def twiceSigned : ModuleArtifact := { artifactSample with sig2 := some "c2ln" }

def tripledManifest : ReleaseManifest :=
  { manifestSample with triple := some "x86_64-linux-gnu" }

/-- A second signature and the asset triple may differ. -/
theorem samples_covered :
    Covered (signedEnv (barLine (artifactParts artifactSample))) sampleRoot artifactSample
      twiceSigned manifestSample tripledManifest (.certificate "6.0.21" "b1" "00") lineSig := by
  have hsigned := line_signed (barLine (artifactParts artifactSample))
  have haccepted : ∀ sig2, verifyArtifactSig
      (signedEnv (barLine (artifactParts artifactSample))) sampleRoot
      { artifactSample with sig2 := sig2 } = .ok () := by
    intro sig2
    have hnew : verifyBytes (signedEnv (barLine (artifactParts artifactSample))) sampleRoot
        (artifactSignMessage { artifactSample with sig2 := sig2 })
        ({ artifactSample with sig2 := sig2 } : ModuleArtifact).sig = .ok () := hsigned
    unfold verifyArtifactSig
    rw [hnew]
  have hjson : JsonText (signedEnv (barLine (artifactParts artifactSample)))
      [manifestBody manifestSample, manifestBody manifestSample] := by
    constructor
    · intro v hv
      have hsame : v = manifestBody manifestSample := by simpa using hv
      rw [hsame]
      simp only [signedEnv, if_true]
      decide
    · intro v hv w hw _
      have hsame : v = manifestBody manifestSample := by simpa using hv
      have hsame' : w = manifestBody manifestSample := by simpa using hw
      rw [hsame, hsame']
  have hnobar : ∀ parts ∈ signedForms artifactSample, ∀ p ∈ parts, '|' ∉ p.toList := by decide
  have hmessage : Signed (signedEnv (barLine (artifactParts artifactSample))) sampleRoot
      ((Statement.artifactV2 artifactSample).message
        (signedEnv (barLine (artifactParts artifactSample)))) lineSig := hsigned
  have hpurpose : (Statement.artifactV2 artifactSample).purpose ≠
      (Statement.certificate "6.0.21" "b1" "00").purpose := by decide
  have hplain : verifyArtifactSig (signedEnv (barLine (artifactParts artifactSample))) sampleRoot
      artifactSample = .ok () := haccepted none
  have htwice : verifyArtifactSig (signedEnv (barLine (artifactParts artifactSample))) sampleRoot
      twiceSigned = .ok () := haccepted _
  have hmanifest : verifyManifestChain (signedEnv (barLine (artifactParts artifactSample)))
      sampleRoot manifestSample = .ok none := manifestSample_accepted _ none
  have htripled : verifyManifestChain (signedEnv (barLine (artifactParts artifactSample)))
      sampleRoot tripledManifest = .ok none := manifestSample_accepted _ _
  refine (covered_iff (signedEnv_binds _) hjson hplain htwice rfl hmanifest htripled rfl hmessage
    hpurpose).mpr ⟨⟨?_, ?_⟩, ?_, ?_⟩
  · rintro ⟨parts, hparts, others, hothers, -, hshifted⟩
    exact not_shifted_of_no_bar (hnobar parts hparts) (hnobar others hothers) hshifted
  · intro hgap
    exact hgap.2.2 rfl
  · exact ⟨rfl, rfl, Iff.rfl, Iff.rfl⟩
  · rintro (⟨art, hart, -⟩ | ⟨art, hart, -⟩) <;> cases hart

/-- The sample with its fields moved over the bars: its legacy line is the newer
line of the sample. -/
def movedArtifact : ModuleArtifact :=
  { artifactSample with
    name := "v2|analyze|1.0.0|ab12|libanalyze.so|1|6|0"
    version := "none"
    sha256 := ""
    asset := "../../other.so" }

/-- Under a signature of the newer line, which binds every member, an artifact
is accepted with another name, version, digest and asset. -/
theorem moved_artifact_accepted :
    BindsMessages (signedEnv (barLine (artifactParts artifactSample))) sampleRoot ∧
      verifyArtifactSig (signedEnv (barLine (artifactParts artifactSample))) sampleRoot
          artifactSample = .ok () ∧
      verifyArtifactSig (signedEnv (barLine (artifactParts artifactSample))) sampleRoot
          movedArtifact = .ok () ∧
      artifactSample.sig = movedArtifact.sig ∧ artifactSample.bound ≠ movedArtifact.bound := by
  have hsigned := line_signed (barLine (artifactParts artifactSample))
  have hplain : verifyArtifactSig (signedEnv (barLine (artifactParts artifactSample))) sampleRoot
      artifactSample = .ok () := by
    have hnew : verifyBytes (signedEnv (barLine (artifactParts artifactSample))) sampleRoot
        (artifactSignMessage artifactSample) artifactSample.sig = .ok () := hsigned
    unfold verifyArtifactSig
    rw [hnew]
  have hmoved : verifyArtifactSig (signedEnv (barLine (artifactParts artifactSample))) sampleRoot
      movedArtifact = .ok () := by
    have hline : artifactSignMessageV1 movedArtifact =
        barLine (artifactParts artifactSample) := by decide
    unfold verifyArtifactSig
    split
    · rfl
    · rw [hline]
      exact hsigned
  exact ⟨signedEnv_binds _, hplain, hmoved, rfl, by decide⟩

end ReleaseSignature

end GrServer
