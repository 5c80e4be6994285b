import GrServer.GuardedRun
import GrServer.OtaPlaces
import GrServer.SignatureCoverage

/-!
# Only signed files are installed

Runs of the engine over manifests, bindings, staged files and activations.
What is staged lies below its version directory and is what the root key signed
under that name, version and asset; once a certified release key is bound, its
signature is asked for as well; and a manifest from which members were removed
lets nothing more through.
-/

namespace GrServer

open Json Text LexicalPath DigestParts

namespace ReleaseSignature

def KeyCertified (env : EngineEnv) (root key : Bytes) : Prop :=
  ∃ version buildId pubkeyHex cert,
    Signed env.toOtaEnv root (releaseCertMessage version buildId pubkeyHex) cert ∧
      env.hexDecode pubkeyHex = some key

section Certificates

variable {env : EngineEnv} {root : Bytes} {man : ReleaseManifest}

theorem verifyReleaseCert_ok {key : Bytes}
    (h : verifyReleaseCert env.toOtaEnv root man = .ok key) :
    ∃ pubkeyHex, nonEmpty man.releasePubkey = some pubkeyHex ∧
      env.hexDecode pubkeyHex = some key ∧ key.length = 32 ∧ env.keyFromBytes key = .ok () ∧
        KeyCertified env root key := by
  unfold verifyReleaseCert at h
  cases hpk : nonEmpty man.releasePubkey with
  | none => simp [hpk] at h
  | some pubkeyHex =>
      cases hcert : nonEmpty man.releaseCert with
      | none => simp [hpk, hcert] at h
      | some cert =>
          cases hbuild : nonEmpty man.buildId with
          | none => simp [hpk, hcert, hbuild] at h
          | some buildId =>
              simp only [hpk, hcert, hbuild] at h
              cases hverify : verifyBytes env.toOtaEnv root
                  (releaseCertMessage man.runtime.version buildId pubkeyHex) cert with
              | error err => simp [hverify, bind, Except.bind] at h
              | ok u =>
                  cases hraw : env.hexDecode pubkeyHex with
                  | none => simp [hverify, hraw, bind, Except.bind] at h
                  | some raw =>
                      by_cases hlen : raw.length = 32
                      · cases hkey : env.keyFromBytes raw with
                        | error t => simp [hverify, hraw, hlen, hkey, bind, Except.bind] at h
                        | ok v =>
                            simp [hverify, hraw, hlen, hkey, bind, Except.bind] at h
                            subst h
                            exact ⟨pubkeyHex, rfl, hraw, hlen, hkey, man.runtime.version,
                              buildId, pubkeyHex, cert, hverify, hraw⟩
                      · simp [hverify, hraw, hlen, bind, Except.bind] at h

theorem verifyManifestChain_ok {rel : Option Bytes}
    (h : verifyManifestChain env.toOtaEnv root man = .ok rel) :
    (nonEmpty man.releasePubkey = none ∧ rel = none) ∨
      ∃ pubkeyHex key, nonEmpty man.releasePubkey = some pubkeyHex ∧ rel = some key ∧
        env.hexDecode pubkeyHex = some key ∧ key.length = 32 ∧ env.keyFromBytes key = .ok () ∧
          KeyCertified env root key := by
  unfold verifyManifestChain at h
  cases hsig : verifyManifestSig env.toOtaEnv root man with
  | error err => simp [hsig, bind, Except.bind] at h
  | ok u =>
      cases hdata : verifyManifestSigData env.toOtaEnv root man with
      | error err => simp [hsig, hdata, bind, Except.bind] at h
      | ok v =>
          cases hpk : nonEmpty man.releasePubkey with
          | none =>
              simp [hsig, hdata, hpk, bind, Except.bind, pure, Except.pure] at h
              exact Or.inl ⟨rfl, h.symm⟩
          | some pk =>
              cases hcert : verifyReleaseCert env.toOtaEnv root man with
              | error err => simp [hsig, hdata, hpk, hcert, bind, Except.bind] at h
              | ok key =>
                  simp [hsig, hdata, hpk, hcert, bind, Except.bind, pure, Except.pure] at h
                  obtain ⟨pubkeyHex, hsome, hraw, hlen, hvk, hcertified⟩ := verifyReleaseCert_ok hcert
                  rw [hpk] at hsome
                  exact Or.inr ⟨pubkeyHex, key, hsome, h.symm, hraw, hlen, hvk, hcertified⟩

end Certificates

/-! ## Runs -/

inductive OtaStep where
  | load (read : Except OtaError ReleaseManifest)
  | fetch (requireSig : Bool) (source : String) (fetched : Except OtaError ReleaseManifest)
  | writeBinding (man : ReleaseManifest) (nowMs : ℤ)
  | loadBinding
  | stage (art : ModuleArtifact) (src : Text) (data : Option Bytes) (runtimeVer : String)
      (nanos : ℕ)
  | activate (name version : String)

structure OtaRun where
  engine : Engine
  bound : Bool

section Runs

variable (env : EngineEnv)

def bindsKey (root : Bytes) (man : ReleaseManifest) : Bool :=
  match verifyManifestChain env.toOtaEnv root man with
  | .ok (some _) => true
  | _ => false

def OtaRun.adopted (s : OtaRun) (r : Except OtaError ReleaseManifest × Engine) : OtaRun where
  engine := r.2
  bound :=
    s.bound || match r.1 with
      | .ok man => bindsKey env s.engine.pubkeyBytes man
      | .error _ => false

def OtaRun.step (s : OtaRun) : OtaStep → OtaRun
  | .load read => s.adopted env (s.engine.loadManifestFile env read)
  | .fetch requireSig source fetched =>
      s.adopted env (s.engine.fetchManifestBlocking env requireSig source fetched)
  | .writeBinding man nowMs =>
      ⟨(s.engine.writeReleaseBinding env man nowMs).2,
        s.bound || bindsKey env s.engine.pubkeyBytes man⟩
  | .loadBinding =>
      match s.engine.loadReleaseBinding env with
      | .ok loaded => { s with engine := loaded }
      | .error _ => s
  | .stage art src data runtimeVer nanos =>
      { s with engine := (s.engine.stageLocalFile env art src data runtimeVer nanos).2 }
  | .activate name version => { s with engine := (s.engine.activate env name version).2 }

/-- The signature checks of `stage_local_file` pass. -/
def Acceptable (e : Engine) (art : ModuleArtifact) : Prop :=
  ∃ loaded release, e.loadReleaseBinding env = .ok loaded ∧ loaded.releaseVk env = .ok release ∧
    verifyArtifactSigChain env.toOtaEnv loaded.pubkeyBytes release art = .ok ()

/-- The artifact bears a signature of a certified release key. -/
def ReleaseSigned (root : Bytes) (art : ModuleArtifact) : Prop :=
  ∃ key sig2, KeyCertified env root key ∧ art.sig2 = some sig2 ∧
    Signed env.toOtaEnv key (artifactSignMessage art) sig2

def Statement.artifact? : Statement → Option ModuleArtifact
  | .artifactV1 art => some art
  | .artifactV2 art => some art
  | _ => none

/-- The root key signed an artifact of this name, version, asset and hash. -/
def RootSigned (log : List Statement) (art : ModuleArtifact) : Prop :=
  ∃ x ∈ log, ∃ signed, x.artifact? = some signed ∧ signed.name = art.name ∧
    signed.version = art.version ∧ signed.asset = art.asset ∧ signed.sha256 = art.sha256

structure FileSound (log : List Statement) (s : OtaRun) (art : ModuleArtifact) (p : List Text)
    (bytes : Bytes) : Prop where
  inVersion : s.engine.versionPlace env art <:+ p
  inModules : "versions".toList :: s.engine.modules env <:+ p
  /-- The sidecar apart, the bytes are those of the artifact. -/
  hash : p ≠ s.engine.metaPlace env art →
    env.sha256Hex bytes = lowered art.sha256 ∨ env.sha256Hex bytes = art.sha256
  signed : RootSigned log art
  released : s.bound = true → ReleaseSigned env s.engine.pubkeyBytes art

/-- Whatever else was edited, a manifest with the signature of a signed one, or
with none, lets no more artifacts through than that one. -/
def EditSound (log : List Statement) (s : OtaRun) (r : Except OtaError ReleaseManifest × Engine) :
    Prop :=
  ∀ man original, r.1 = .ok man → Statement.manifest original ∈ log →
    (∃ rel, verifyManifestChain env.toOtaEnv s.engine.pubkeyBytes original = .ok rel) →
    man.sig = none ∨ man.sig = original.sig →
    ∀ art, Acceptable env r.2 art → Acceptable env (s.engine.adoptManifest env original).2 art

def StepSafe (log : List Statement) (s : OtaRun) : OtaStep → Prop
  | .load read => EditSound env log s (s.engine.loadManifestFile env read)
  | .fetch requireSig source fetched =>
      EditSound env log s (s.engine.fetchManifestBlocking env requireSig source fetched)
  | .stage art src data runtimeVer nanos =>
      ∀ p bytes,
        (s.engine.stageLocalFile env art src data runtimeVer nanos).2.disk.read p = some bytes →
          s.engine.disk.read p ≠ some bytes → FileSound env log s art p bytes
  | _ => True

/-- The manifest is signed, and names a release key unless none was bound or
the bound one is on the disk. -/
structure ManifestGuarded (s : OtaRun) (man : ReleaseManifest) : Prop where
  signed : (nonEmpty man.sig).isSome = true
  named : (nonEmpty man.releasePubkey).isSome = true ∨ s.bound = false ∨
    (s.engine.disk.read (s.engine.bindingPlace env)).isSome = true

def StepGuarded (s : OtaRun) : OtaStep → Prop
  | .load read => ∀ man, read = .ok man → ManifestGuarded env s man
  | .fetch _ _ fetched => ∀ man, fetched = .ok man → ManifestGuarded env s man
  | .writeBinding man _ =>
      ∃ rel, verifyManifestChain env.toOtaEnv s.engine.pubkeyBytes man = .ok rel
  | .loadBinding => True
  | .stage art _ _ _ _ =>
      ¬ Signed env.toOtaEnv s.engine.pubkeyBytes (artifactSignMessageV1 art) art.sig ∧
        Engine.PathsBelow art
  | .activate name _ => Below name.toList

/-- What `serde_json` does on the values of a step. -/
def StepText (log : List Statement) : OtaStep → Prop
  | .load read =>
      ∀ man, read = .ok man → JsonText env.toOtaEnv (manifestBody man :: log.flatMap Statement.bodies)
  | .fetch _ _ fetched =>
      ∀ man, fetched = .ok man →
        JsonText env.toOtaEnv (manifestBody man :: log.flatMap Statement.bodies)
  | .writeBinding man nowMs =>
      ∀ pk, nonEmpty man.releasePubkey = some pk →
        env.parseJson (env.prettyJson (Engine.bindingJson man.buildId pk nowMs)) =
          .ok (Engine.bindingJson man.buildId pk nowMs)
  | .stage .. => JsonText env.toOtaEnv (log.flatMap Statement.bodies)
  | _ => True

def Statement.fields : Statement → List String
  | .artifactV1 art => legacyParts art
  | .artifactV2 art => artifactParts art
  | .certificate version buildId pubkeyHex => certParts version buildId pubkeyHex
  | _ => []

/-- The root key is of 32 bytes, signed only what is in the log, and used no
bar inside a field. -/
structure RootKey (root : Bytes) (log : List Statement) : Prop where
  length : root.length = 32
  unforgeable : ∀ msg sig, Signed env.toOtaEnv root msg sig → ∃ x ∈ log, x.message env.toOtaEnv = msg
  binds : BindsMessages env.toOtaEnv root
  barFree : ∀ x ∈ log, ∀ p ∈ x.fields, '|' ∉ p.toList

def BindingCertified (root : Bytes) (e : Engine) : Prop :=
  ∀ bytes, e.disk.read (e.bindingPlace env) = some bytes →
    ∃ body v pk key, utf8? bytes = some body ∧ env.parseJson body = .ok v ∧
      (v.get? "release_pubkey").bind asStr = some pk ∧ env.hexDecode pk = some key ∧
        key.length = 32 ∧ KeyCertified env root key

structure RunInv (root : Bytes) (s : OtaRun) : Prop where
  pubkey : s.engine.pubkeyBytes = root
  certified : ∀ key, s.engine.releaseKey = some key → KeyCertified env root key
  binding : BindingCertified env root s.engine
  bound : s.bound = true → s.engine.releaseKey.isSome = true ∨
    (s.engine.disk.read (s.engine.bindingPlace env)).isSome = true

end Runs

/-! ## Bindings -/

section Bindings

variable {env : EngineEnv} {root : Bytes} {e loaded : Engine}

/-- The key that a binding file names.  A file that is missing names none, nor does
one without `release_pubkey`. -/
inductive Binds (env : EngineEnv) : Option String → Option Bytes → Prop
  | missing : Binds env none none
  | unnamed {body : String} {v : Json} (hparse : env.parseJson body = .ok v)
      (hpk : (v.get? "release_pubkey").bind asStr = none) : Binds env (some body) none
  | named {body pk : String} {v : Json} {key : Bytes} (hparse : env.parseJson body = .ok v)
      (hpk : (v.get? "release_pubkey").bind asStr = some pk)
      (hkey : env.hexDecode pk = some key) (hlen : key.length = 32) :
      Binds env (some body) (some key)

theorem loadReleaseBinding_ok_iff :
    e.loadReleaseBinding env = .ok loaded ↔
      ∃ key, Binds env (e.readText env e.bindingPath) key ∧
        loaded = { e with releaseKey := key.or e.releaseKey } := by
  constructor
  · intro h
    unfold Engine.loadReleaseBinding at h
    cases hbody : e.readText env e.bindingPath with
    | none =>
        simp only [hbody, Except.ok.injEq] at h
        exact ⟨none, .missing, h.symm⟩
    | some body =>
        cases hparse : env.parseJson body with
        | error t => simp [hbody, hparse] at h
        | ok v =>
            cases hpk : (v.get? "release_pubkey").bind asStr with
            | none =>
                simp only [hbody, hparse, hpk, Except.ok.injEq] at h
                exact ⟨none, .unnamed hparse hpk, h.symm⟩
            | some pk =>
                cases hraw : env.hexDecode pk with
                | none => simp [hbody, hparse, hpk, hraw] at h
                | some raw =>
                    by_cases hlen : raw.length = 32
                    · simp only [hbody, hparse, hpk, hraw, hlen, ne_eq, not_true_eq_false,
                        if_false, Except.ok.injEq] at h
                      exact ⟨some raw, .named hparse hpk hraw hlen, h.symm⟩
                    · simp [hbody, hparse, hpk, hraw, hlen] at h
  · rintro ⟨key, hbinds, rfl⟩
    unfold Engine.loadReleaseBinding
    generalize e.readText env e.bindingPath = body at hbinds
    cases hbinds with
    | missing => rfl
    | unnamed hparse hpk => simp only [hparse, hpk, Option.none_or]
    | named hparse hpk hkey hlen =>
        simp only [hparse, hpk, hkey, hlen, ne_eq, not_true_eq_false, if_false, Option.some_or]

theorem loadReleaseBinding_ok (hcert : BindingCertified env root e)
    (h : e.loadReleaseBinding env = .ok loaded) :
    (loaded = e ∧ e.disk.read (e.bindingPlace env) = none) ∨
      ∃ key, loaded = { e with releaseKey := some key } ∧ KeyCertified env root key := by
  have hread : e.readText env e.bindingPath = (e.disk.read (e.bindingPlace env)).bind utf8? := by
    unfold Engine.readText
    rw [Engine.resolve_bindingPath]
  obtain ⟨key, hbinds, rfl⟩ := loadReleaseBinding_ok_iff.mp h
  rw [hread] at hbinds
  cases hbytes : e.disk.read (e.bindingPlace env) with
  | none =>
      rw [hbytes] at hbinds
      cases hbinds
      exact Or.inl ⟨rfl, rfl⟩
  | some bytes =>
      obtain ⟨body, v, pk, certified, hbody, hparse, hpk, hkey, -, hcertified⟩ := hcert bytes hbytes
      rw [hbytes, Option.bind_some, hbody] at hbinds
      cases hbinds with
      | unnamed hparse' hpk' =>
          obtain rfl := Except.ok.inj (hparse.symm.trans hparse')
          cases hpk.symm.trans hpk'
      | named hparse' hpk' hkey' hlen =>
          obtain rfl := Except.ok.inj (hparse.symm.trans hparse')
          obtain rfl := Option.some.inj (hpk.symm.trans hpk')
          obtain rfl := Option.some.inj (hkey.symm.trans hkey')
          exact Or.inr ⟨certified, rfl, hcertified⟩

theorem certified_of_loaded (hcert : BindingCertified env root e)
    (hkey : ∀ key, e.releaseKey = some key → KeyCertified env root key)
    (h : e.loadReleaseBinding env = .ok loaded) {key : Bytes} (hloaded : loaded.releaseKey = some key) :
    KeyCertified env root key := by
  rcases loadReleaseBinding_ok hcert h with ⟨rfl, -⟩ | ⟨bound, rfl, hbound⟩
  · exact hkey key hloaded
  · cases hloaded
    exact hbound

theorem loadReleaseBinding_same (h : e.loadReleaseBinding env = .ok loaded) :
    loaded = { e with releaseKey := loaded.releaseKey } := by
  obtain ⟨key, -, rfl⟩ := loadReleaseBinding_ok_iff.mp h
  rfl

theorem BindingCertified.congr {e' : Engine} (h : BindingCertified env root e)
    (hdir : e'.modulesDir = e.modulesDir)
    (hread : e'.disk.read (e.bindingPlace env) = e.disk.read (e.bindingPlace env)) :
    BindingCertified env root e' := by
  intro bytes hbytes
  have hplace : e'.bindingPlace env = e.bindingPlace env := by
    simp only [Engine.bindingPlace, Engine.modules, hdir]
  rw [hplace, hread] at hbytes
  exact h bytes hbytes

theorem bindingJson_pubkey (buildId : Option String) (pk : String) (nowMs : ℤ) :
    ((Engine.bindingJson buildId pk nowMs).get? "release_pubkey").bind asStr = some pk := by
  simp [Engine.bindingJson, Assoc.find?, asStr]

theorem bindingCertified_written {man : ReleaseManifest} {pk : String} {key : Bytes} {nowMs : ℤ}
    (hjson : env.parseJson (env.prettyJson (Engine.bindingJson man.buildId pk nowMs)) =
      .ok (Engine.bindingJson man.buildId pk nowMs))
    (hkey : env.hexDecode pk = some key) (hlen : key.length = 32)
    (hcertified : KeyCertified env root key)
    (hread : e.disk.read (e.bindingPlace env) =
      some (asBytes (env.prettyJson (Engine.bindingJson man.buildId pk nowMs)))) :
    BindingCertified env root e := by
  intro bytes hbytes
  have hsame : asBytes (env.prettyJson (Engine.bindingJson man.buildId pk nowMs)) = bytes :=
    Option.some.inj (hread.symm.trans hbytes)
  refine ⟨_, _, pk, key, ?_, hjson, bindingJson_pubkey _ _ _, hkey, hlen, hcertified⟩
  rw [← hsame]
  exact utf8?_asBytes _

theorem writeReleaseBinding_cases {man : ReleaseManifest} {nowMs : ℤ} {rel : Option Bytes}
    (hchain : verifyManifestChain env.toOtaEnv root man = .ok rel)
    (hjson : ∀ pk, nonEmpty man.releasePubkey = some pk →
      env.parseJson (env.prettyJson (Engine.bindingJson man.buildId pk nowMs)) =
        .ok (Engine.bindingJson man.buildId pk nowMs)) :
    (rel = none ∧ (e.writeReleaseBinding env man nowMs).2 = e) ∨
      (BindingCertified env root (e.writeReleaseBinding env man nowMs).2 ∧
        (e.writeReleaseBinding env man nowMs).2.pubkeyBytes = e.pubkeyBytes ∧
        ((e.writeReleaseBinding env man nowMs).2.disk.read
          ((e.writeReleaseBinding env man nowMs).2.bindingPlace env)).isSome = true ∧
        ∀ key, (e.writeReleaseBinding env man nowMs).2.releaseKey = some key →
          e.releaseKey = some key ∨ KeyCertified env root key) := by
  rcases verifyManifestChain_ok hchain with ⟨hnone, hrel⟩ | ⟨pk, key, hpk, -, hraw, hlen, -, hcertified⟩
  · refine Or.inl ⟨hrel, ?_⟩
    simp only [Engine.writeReleaseBinding, hnone]
  · right
    have hread : ((e.createDirAll env e.modulesDir).writeText env e.bindingPath
        (env.prettyJson (Engine.bindingJson man.buildId pk nowMs))).disk.read (e.bindingPlace env) =
          some (asBytes (env.prettyJson (Engine.bindingJson man.buildId pk nowMs))) := by
      simp only [Engine.writeText, Engine.createDirAll, Engine.resolve_bindingPath,
        Disk.read_write, if_true]
    have hwritten := bindingCertified_written (e := (e.createDirAll env e.modulesDir).writeText env
      e.bindingPath (env.prettyJson (Engine.bindingJson man.buildId pk nowMs)))
      (hjson pk hpk) hraw hlen hcertified hread
    cases hload : ((e.createDirAll env e.modulesDir).writeText env e.bindingPath
        (env.prettyJson (Engine.bindingJson man.buildId pk nowMs))).loadReleaseBinding env with
    | error err =>
        simp only [Engine.writeReleaseBinding, hpk, hload]
        refine ⟨hwritten, rfl, ?_, fun key hkey => Or.inl hkey⟩
        exact Option.isSome_of_eq_some hread
    | ok loaded =>
        simp only [Engine.writeReleaseBinding, hpk, hload]
        have hsame := loadReleaseBinding_same hload
        have hdisk : loaded.disk = _ := congrArg Engine.disk hsame
        have hdir : loaded.modulesDir = e.modulesDir := by
          rw [hsame]
          rfl
        have hpubkey : loaded.pubkeyBytes = e.pubkeyBytes := by
          rw [hsame]
          rfl
        refine ⟨?_, hpubkey, ?_, ?_⟩
        · exact hwritten.congr hdir (by rw [hdisk])
        · have hplace : loaded.bindingPlace env = e.bindingPlace env := by
            simp only [Engine.bindingPlace, Engine.modules, hdir]
          rw [hplace, hdisk]
          exact Option.isSome_of_eq_some hread
        · intro key' hkey'
          rcases loadReleaseBinding_ok hwritten hload with ⟨hunchanged, -⟩ | ⟨bound, hbound, hb⟩
          · rw [hunchanged] at hkey'
            exact Or.inl hkey'
          · rw [hbound] at hkey'
            cases hkey'
            exact Or.inr hb

end Bindings

/-! ## Manifests -/

section Manifests

variable {env : EngineEnv} {root : Bytes} {log : List Statement} {s : OtaRun}
  {incoming r : Except OtaError ReleaseManifest}

def Adopts (env : EngineEnv) (e : Engine) (incoming : Except OtaError ReleaseManifest)
    (r : Except OtaError ReleaseManifest × Engine) : Prop :=
  (∃ err, r = (.error err, e)) ∨
    ∃ man rel, incoming = .ok man ∧ verifyManifestChain env.toOtaEnv e.pubkeyBytes man = .ok rel ∧
      r = (.ok man, { e with releaseKey := rel })

theorem adopts_adoptManifest {e : Engine} {man : ReleaseManifest} (h : incoming = .ok man) :
    Adopts env e incoming (e.adoptManifest env man) := by
  unfold Engine.adoptManifest
  cases hchain : verifyManifestChain env.toOtaEnv e.pubkeyBytes man with
  | error err => exact Or.inl ⟨err, rfl⟩
  | ok rel => exact Or.inr ⟨man, rel, h, hchain, rfl⟩

theorem adopts_loadManifestFile {e : Engine} (hkey : e.pubkeyBytes ≠ [])
    (hsig : ∀ man, incoming = .ok man → (nonEmpty man.sig).isSome = true) :
    Adopts env e incoming (e.loadManifestFile env incoming) := by
  unfold Engine.loadManifestFile
  cases hin : incoming with
  | error err => exact Or.inl ⟨err, rfl⟩
  | ok man =>
      have hasked : e.pubkeyBytes ≠ [] ∧ (nonEmpty man.sig).isSome = true := ⟨hkey, hsig man hin⟩
      simp only [if_pos hasked]
      exact adopts_adoptManifest rfl

theorem adopts_fetchManifestBlocking {e : Engine} (hkey : e.pubkeyBytes ≠ [])
    (hsig : ∀ man, incoming = .ok man → (nonEmpty man.sig).isSome = true) (requireSig : Bool)
    (source : String) :
    Adopts env e incoming (e.fetchManifestBlocking env requireSig source incoming) := by
  unfold Engine.fetchManifestBlocking
  cases hin : incoming with
  | error err => exact Or.inl ⟨err, rfl⟩
  | ok man =>
      cases harch : man.arch.filter fun declared =>
          Engine.normalizeHostArch declared ≠ Engine.normalizeHostArch env.hostArch with
      | some declared =>
          simp only [harch]
          exact Or.inl ⟨_, rfl⟩
      | none =>
          have hasked : requireSig = true ∨ (nonEmpty man.sig).isSome = true :=
            Or.inr (hsig man hin)
          simp only [harch, if_neg hkey, if_pos hasked]
          exact adopts_adoptManifest rfl

theorem nonEmpty_congr {x y : Option String} (h : x.getD "" = y.getD "") :
    nonEmpty x = nonEmpty y := by
  have hgetD : ∀ z : Option String,
      nonEmpty z = if z.getD "" = "" then none else some (z.getD "") := by
    intro z
    cases z with
    | none => rfl
    | some t => by_cases ht : t = "" <;> simp [nonEmpty, Option.filter, ht]
  rw [hgetD, hgetD, h]

theorem rel_eq_of_sig {man original : ReleaseManifest} {rel rel' : Option Bytes}
    (hbinds : BindsMessages env.toOtaEnv root)
    (hbody : env.toVec (manifestBody man) = env.toVec (manifestBody original) →
      manifestBody man = manifestBody original)
    (h : verifyManifestChain env.toOtaEnv root man = .ok rel)
    (h' : verifyManifestChain env.toOtaEnv root original = .ok rel')
    (hsig : man.sig = original.sig) : rel = rel' := by
  obtain ⟨sig, hsome, hsigned⟩ := signed_of_chain h
  obtain ⟨sig', hsome', hsigned'⟩ := signed_of_chain h'
  have hsame : sig = sig' := by
    rw [hsome, hsome'] at hsig
    exact Option.some.inj hsig
  subst hsame
  have hcovered := sameCovered_of_body (hbody (hbinds _ _ _ hsigned hsigned'))
  have hpk := nonEmpty_congr hcovered.releasePubkey
  rcases verifyManifestChain_ok h with ⟨hnone, hrel⟩ | ⟨pk, key, hsomePk, hrel, hraw, -⟩
  · rcases verifyManifestChain_ok h' with ⟨-, hrel'⟩ | ⟨pk', key', hsomePk', -⟩
    · rw [hrel, hrel']
    · rw [← hpk, hnone] at hsomePk'
      cases hsomePk'
  · rcases verifyManifestChain_ok h' with ⟨hnone', -⟩ | ⟨pk', key', hsomePk', hrel', hraw', -⟩
    · rw [← hpk, hsomePk] at hnone'
      cases hnone'
    · rw [← hpk, hsomePk] at hsomePk'
      cases hsomePk'
      rw [hraw] at hraw'
      rw [hrel, hrel', hraw']

theorem editSound_of_adopts {r : Except OtaError ReleaseManifest × Engine}
    (hroot : RootKey env s.engine.pubkeyBytes log) (hadopts : Adopts env s.engine incoming r)
    (hguard : ∀ man, incoming = .ok man → ManifestGuarded env s man)
    (htext : ∀ man, incoming = .ok man →
      JsonText env.toOtaEnv (manifestBody man :: log.flatMap Statement.bodies)) :
    EditSound env log s r := by
  intro man original hok hmem horiginal hsig art haccept
  obtain ⟨rel', hchain'⟩ := horiginal
  rcases hadopts with ⟨err, rfl⟩ | ⟨man', rel, hin, hchain, rfl⟩
  · cases hok
  · cases hok
    have hsigned := (hguard man hin).signed
    have hsame : man.sig = original.sig := by
      rcases hsig with hnone | hsame
      · rw [hnone] at hsigned
        cases hsigned
      · exact hsame
    have hbody : manifestBody original ∈ manifestBody man :: log.flatMap Statement.bodies :=
      List.mem_cons_of_mem _ (List.mem_flatMap.mpr ⟨_, hmem, List.mem_singleton.mpr rfl⟩)
    have hrel : rel = rel' :=
      rel_eq_of_sig hroot.binds ((htext man hin).apart _ List.mem_cons_self _ hbody) hchain hchain'
        hsame
    have hengine : (s.engine.adoptManifest env original).2 =
        { s.engine with releaseKey := rel } := by
      unfold Engine.adoptManifest
      rw [hchain', hrel]
    rw [hengine]
    exact haccept

theorem bindsKey_eq {e : Engine} {man : ReleaseManifest} {rel : Option Bytes}
    (h : verifyManifestChain env.toOtaEnv e.pubkeyBytes man = .ok rel) :
    bindsKey env e.pubkeyBytes man = rel.isSome := by
  unfold bindsKey
  rw [h]
  cases rel <;> rfl

theorem RunInv.adopted {r : Except OtaError ReleaseManifest × Engine} (hinv : RunInv env root s)
    (hadopts : Adopts env s.engine incoming r)
    (hguard : ∀ man, incoming = .ok man → ManifestGuarded env s man) :
    RunInv env root (s.adopted env r) := by
  rcases hadopts with ⟨err, rfl⟩ | ⟨man, rel, hin, hchain, rfl⟩
  · have hbound : (s.adopted env (.error err, s.engine)).bound = s.bound := by
      simp [OtaRun.adopted]
    exact
      { pubkey := hinv.pubkey
        certified := hinv.certified
        binding := hinv.binding
        bound := fun h => hinv.bound (hbound ▸ h) }
  · have hbinds := bindsKey_eq hchain
    rw [hinv.pubkey] at hchain
    have hkeys := verifyManifestChain_ok hchain
    constructor
    · exact hinv.pubkey
    · intro key hkey
      have hrel : rel = some key := hkey
      rcases hkeys with ⟨-, hnone⟩ | ⟨pk, key', -, hsome, -, -, -, hcertified⟩
      · rw [hrel] at hnone
        cases hnone
      · rw [hrel] at hsome
        cases hsome
        exact hcertified
    · exact hinv.binding
    · intro hbound
      rcases hkeys with ⟨hnone, hrel⟩ | ⟨pk, key, -, hrel, -⟩
      · -- a manifest without a release key resets it, but the binding stays
        have hwas : s.bound = true := by
          simpa [OtaRun.adopted, hbinds, hrel] using hbound
        right
        rcases (hguard man hin).named with hnamed | hfree | hdisk
        · rw [hnone] at hnamed
          cases hnamed
        · rw [hwas] at hfree
          cases hfree
        · exact hdisk
      · left
        simp [OtaRun.adopted, hrel]

end Manifests

section Staged

variable {env : EngineEnv} {root : Bytes} {log : List Statement} {art : ModuleArtifact}
  {e : Engine} {src : Text} {data : Option Bytes} {runtimeVer : String} {bytes : Bytes}

theorem verifyArtifactSigChain_ok {release : Option Bytes}
    (h : verifyArtifactSigChain env.toOtaEnv root release art = .ok ()) :
    verifyArtifactSig env.toOtaEnv root art = .ok () ∧
      ∀ key, release = some key →
        ∃ sig2, art.sig2 = some sig2 ∧ Signed env.toOtaEnv key (artifactSignMessage art) sig2 := by
  unfold verifyArtifactSigChain at h
  cases hroot : verifyArtifactSig env.toOtaEnv root art with
  | error err => simp [hroot, bind, Except.bind] at h
  | ok u =>
      refine ⟨rfl, ?_⟩
      intro key hkey
      subst hkey
      cases hsig2 : nonEmpty art.sig2 with
      | none => simp [hroot, hsig2, bind, Except.bind] at h
      | some sig2 =>
          simp only [hroot, hsig2, bind, Except.bind] at h
          exact ⟨sig2, (Option.filter_eq_some_iff.mp hsig2).1, h⟩

theorem releaseVk_ok {release : Option Bytes} (h : e.releaseVk env = .ok release) :
    release = e.releaseKey := by
  unfold Engine.releaseVk at h
  cases hkey : e.releaseKey with
  | none =>
      simp only [hkey, Except.ok.injEq] at h
      exact h.symm
  | some key =>
      by_cases hlen : key.length = 32
      · cases hvk : env.keyFromBytes key with
        | error t => simp [hkey, hlen, hvk] at h
        | ok u =>
            simp only [hkey, hlen, hvk, ne_eq, not_true_eq_false, if_false, Except.ok.injEq] at h
            exact h.symm
      · simp [hkey, hlen] at h

structure Checked (env : EngineEnv) (e : Engine) (art : ModuleArtifact) (bytes : Bytes) : Prop where
  chain : verifyArtifactSigChain env.toOtaEnv e.pubkeyBytes e.releaseKey art = .ok ()
  root : verifyArtifactSig env.toOtaEnv e.pubkeyBytes art = .ok ()
  release : ∀ key, e.releaseKey = some key →
    ∃ sig2, art.sig2 = some sig2 ∧ Signed env.toOtaEnv key (artifactSignMessage art) sig2
  hash : env.sha256Hex bytes = lowered art.sha256 ∨ env.sha256Hex bytes = art.sha256

theorem stageChecks_ok (h : e.stageChecks env art src data runtimeVer = .ok bytes) :
    Checked env e art bytes := by
  unfold Engine.stageChecks at h
  cases hcompat : Engine.checkCompat env art runtimeVer with
  | error err => simp [hcompat, bind, Except.bind] at h
  | ok u =>
      cases hvk : e.releaseVk env with
      | error err => simp [hcompat, hvk, bind, Except.bind] at h
      | ok release =>
          cases hchain : verifyArtifactSigChain env.toOtaEnv e.pubkeyBytes release art with
          | error err => simp [hcompat, hvk, hchain, bind, Except.bind] at h
          | ok v =>
              simp only [hcompat, hvk, hchain, bind, Except.bind] at h
              rw [releaseVk_ok hvk] at hchain
              obtain ⟨hroot, hrelease⟩ := verifyArtifactSigChain_ok hchain
              refine ⟨hchain, hroot, hrelease, ?_⟩
              cases hdata : data with
              | none => simp [Engine.verifyFileSha256, hdata] at h
              | some read =>
                  simp only [Engine.verifyFileSha256, hdata] at h
                  split at h
                  · cases h
                  · rename_i hhash
                    cases h
                    by_contra hneither
                    exact hhash (not_or.mp hneither)

theorem artifactParts_length (a : ModuleArtifact) : (artifactParts a).length = 10 := rfl

theorem bound_eq_of_line {signed : ModuleArtifact}
    (hfree : ∀ p ∈ artifactParts signed, '|' ∉ p.toList)
    (h : pieces (artifactParts signed) = pieces (artifactParts art)) : signed.bound = art.bound := by
  have hwhole : pieces (artifactParts signed) = (artifactParts signed).map String.toList := by
    apply Delimited.flatMap_splitOn_eq_self
    intro q hq
    obtain ⟨p, hp, rfl⟩ := List.mem_map.mp hq
    exact hfree p hp
  have hlen : (pieces (artifactParts art)).length =
      ((artifactParts art).map String.toList).length := by
    rw [← h, hwhole, List.length_map, List.length_map, artifactParts_length, artifactParts_length]
  have hwhole' : pieces (artifactParts art) = (artifactParts art).map String.toList :=
    Delimited.flatMap_splitOn_eq_of_length hlen
  rw [hwhole, hwhole'] at h
  apply artifactParts_inj.mp
  exact List.map_injective_iff.mpr (fun _ _ hs => String.toList_injective hs) h

theorem artifactV2_of_message {x : Statement} (hjson : JsonText env.toOtaEnv x.bodies)
    (hfree : ∀ p ∈ x.fields, '|' ∉ p.toList)
    (h : x.message env.toOtaEnv = artifactSignMessage art) :
    ∃ signed, x = .artifactV2 signed ∧ signed.bound = art.bound := by
  by_cases hpurpose : x.purpose = (Statement.artifactV2 art).purpose
  · cases x with
    | artifactV2 signed =>
        have hpieces := (barLine_eq_iff (List.cons_ne_nil _ _) (List.cons_ne_nil _ _)).mp h
        exact ⟨signed, rfl, bound_eq_of_line hfree hpieces⟩
    | _ => cases hpurpose
  · have hconfused := (message_eq_iff (y := .artifactV2 art)
      (by simpa [Statement.bodies] using hjson) hpurpose).mp h
    rcases hconfused with ⟨legacy, rfl, hreads⟩ | ⟨legacy, hlegacy, -⟩
    · -- the legacy line has three fields without a bar, the newer one ten
      have hpieces : pieces (legacyParts legacy) = pieces (artifactParts art) := hreads
      have hwhole : pieces (legacyParts legacy) = (legacyParts legacy).map String.toList := by
        apply Delimited.flatMap_splitOn_eq_self
        intro q hq
        obtain ⟨p, hp, rfl⟩ := List.mem_map.mp hq
        exact hfree p hp
      have hlong := @Delimited.length_le_flatMap_splitOn _ _ '|'
        ((artifactParts art).map String.toList)
      rw [List.length_map, artifactParts_length] at hlong
      have hlen := congrArg List.length hpieces
      rw [hwhole, List.length_map] at hlen
      have hthree : (legacyParts legacy).length = 3 := rfl
      have hten : (pieces (artifactParts art)).length =
          (((artifactParts art).map String.toList).flatMap (List.splitOn '|')).length := rfl
      omega
    · cases hlegacy

theorem rootSigned_of_accepted (hroot : RootKey env root log)
    (hjson : JsonText env.toOtaEnv (log.flatMap Statement.bodies))
    (hlegacy : ¬ Signed env.toOtaEnv root (artifactSignMessageV1 art) art.sig)
    (h : verifyArtifactSig env.toOtaEnv root art = .ok ()) : RootSigned log art := by
  have hsigned : Signed env.toOtaEnv root (artifactSignMessage art) art.sig := by
    unfold verifyArtifactSig at h
    cases hnew : verifyBytes env.toOtaEnv root (artifactSignMessage art) art.sig with
    | ok u => exact hnew
    | error err =>
        rw [hnew] at h
        exact absurd h hlegacy
  obtain ⟨x, hx, hmessage⟩ := hroot.unforgeable _ _ hsigned
  have hbodies : x.bodies ⊆ log.flatMap Statement.bodies := by
    intro v hv
    exact List.mem_flatMap.mpr ⟨x, hx, hv⟩
  obtain ⟨signed, rfl, hbound⟩ :=
    artifactV2_of_message (hjson.mono hbodies) (hroot.barFree x hx) hmessage
  simp only [ModuleArtifact.bound, BoundMembers.mk.injEq] at hbound
  exact ⟨_, hx, signed, rfl, hbound.1, hbound.2.1, hbound.2.2.2.1, hbound.2.2.1⟩

end Staged

section Steps

variable {env : EngineEnv} {root : Bytes} {log : List Statement} {s : OtaRun}

theorem RunInv.of_same {e' : Engine} (hinv : RunInv env root s)
    (hpubkey : e'.pubkeyBytes = s.engine.pubkeyBytes)
    (hdir : e'.modulesDir = s.engine.modulesDir)
    (hread : e'.disk.read (s.engine.bindingPlace env) =
      s.engine.disk.read (s.engine.bindingPlace env))
    (hkey : ∀ key, e'.releaseKey = some key → KeyCertified env root key)
    (hbound : s.engine.releaseKey.isSome = true → e'.releaseKey.isSome = true) :
    RunInv env root ⟨e', s.bound⟩ := by
  have hplace : e'.bindingPlace env = s.engine.bindingPlace env := by
    simp only [Engine.bindingPlace, Engine.modules, hdir]
  constructor
  · exact hpubkey.trans hinv.pubkey
  · exact hkey
  · exact hinv.binding.congr hdir hread
  · intro h
    rcases hinv.bound h with hsome | hdisk
    · exact Or.inl (hbound hsome)
    · right
      show (e'.disk.read (e'.bindingPlace env)).isSome = true
      rw [hplace, hread]
      exact hdisk

theorem releaseKey_of_bound {loaded : Engine} (hinv : RunInv env root s) (hbound : s.bound = true)
    (h : s.engine.loadReleaseBinding env = .ok loaded) :
    ∃ key, loaded.releaseKey = some key ∧ KeyCertified env root key := by
  rcases loadReleaseBinding_ok hinv.binding h with ⟨rfl, hnone⟩ | ⟨key, rfl, hcertified⟩
  · rcases hinv.bound hbound with hsome | hdisk
    · obtain ⟨key, hkey⟩ := Option.isSome_iff_exists.mp hsome
      exact ⟨key, hkey, hinv.certified key hkey⟩
    · rw [hnone] at hdisk
      cases hdisk
  · exact ⟨key, rfl, hcertified⟩

theorem RunInv.loaded {loaded : Engine} (hinv : RunInv env root s)
    (h : s.engine.loadReleaseBinding env = .ok loaded) : RunInv env root ⟨loaded, s.bound⟩ := by
  have hsame := loadReleaseBinding_same h
  apply hinv.of_same
  · rw [hsame]
  · rw [hsame]
  · rw [hsame]
  · intro key hkey
    exact certified_of_loaded hinv.binding hinv.certified h hkey
  · intro hsome
    rcases loadReleaseBinding_ok hinv.binding h with ⟨rfl, -⟩ | ⟨key, rfl, -⟩
    · exact hsome
    · rfl

theorem fileSound_of_checked {loaded : Engine} {art : ModuleArtifact} {bytes : Bytes} {nanos : ℕ}
    (hinv : RunInv env root s) (hroot : RootKey env root log)
    (hjson : JsonText env.toOtaEnv (log.flatMap Statement.bodies))
    (hlegacy : ¬ Signed env.toOtaEnv root (artifactSignMessageV1 art) art.sig)
    (hpaths : Engine.PathsBelow art) (hload : s.engine.loadReleaseBinding env = .ok loaded)
    (hchecked : Checked env loaded art bytes) {p : List Text} {left : Bytes}
    (hleft : (loaded.placeModule env art bytes nanos).disk.read p = some left)
    (hnew : s.engine.disk.read p ≠ some left) : FileSound env log s art p left := by
  have hsame := loadReleaseBinding_same hload
  have hdisk : loaded.disk = s.engine.disk := by rw [hsame]
  have hpubkey : loaded.pubkeyBytes = root := by
    rw [hsame]
    exact hinv.pubkey
  have hversion : loaded.versionPlace env art = s.engine.versionPlace env art := by
    rw [hsame]
    rfl
  have hmeta : loaded.metaPlace env art = s.engine.metaPlace env art := by
    rw [hsame]
    rfl
  have hchanged : (loaded.placeModule env art bytes nanos).disk.read p ≠ loaded.disk.read p := by
    rw [hleft, hdisk]
    exact hnew.symm
  have hbelow := Engine.suffix_of_placed hpaths hchanged
  rw [hversion] at hbelow
  constructor
  · exact hbelow
  · exact (Engine.versionPlace_suffix hpaths).trans hbelow
  · intro hnotMeta
    rw [Engine.read_placeModule, hmeta, if_neg hnotMeta] at hleft
    have hbytes : left = bytes := by
      by_cases hdest : p = loaded.destPlace env art
      · rw [if_pos hdest] at hleft
        exact (Option.some.inj hleft).symm
      · rw [if_neg hdest, hdisk] at hleft
        by_cases htmp : p = loaded.tmpPlace env art nanos
        · rw [if_pos htmp] at hleft
          cases hleft
        · rw [if_neg htmp] at hleft
          exact absurd hleft hnew
    rw [hbytes]
    exact hchecked.hash
  · have haccepted := hchecked.root
    rw [hpubkey] at haccepted
    exact rootSigned_of_accepted hroot hjson hlegacy haccepted
  · intro hbound
    obtain ⟨key, hkey, hcertified⟩ := releaseKey_of_bound hinv hbound hload
    obtain ⟨sig2, hsig2, hsigned⟩ := hchecked.release key hkey
    rw [hinv.pubkey]
    exact ⟨key, sig2, hcertified, hsig2, hsigned⟩

theorem stage_safe {art : ModuleArtifact} {src : Text} {data : Option Bytes} {runtimeVer : String}
    {nanos : ℕ} (hinv : RunInv env root s) (hroot : RootKey env root log)
    (hjson : JsonText env.toOtaEnv (log.flatMap Statement.bodies))
    (hlegacy : ¬ Signed env.toOtaEnv root (artifactSignMessageV1 art) art.sig)
    (hpaths : Engine.PathsBelow art) :
    StepSafe env log s (.stage art src data runtimeVer nanos) ∧
      RunInv env root (s.step env (.stage art src data runtimeVer nanos)) := by
  cases hload : s.engine.loadReleaseBinding env with
  | error err =>
      constructor
      · intro p left hleft hnew
        simp only [Engine.stageLocalFile, hload] at hleft
        exact absurd hleft hnew
      · simp only [OtaRun.step, Engine.stageLocalFile, hload]
        exact hinv
  | ok loaded =>
      have hsame := loadReleaseBinding_same hload
      have hdisk : loaded.disk = s.engine.disk := by rw [hsame]
      cases hchecks : loaded.stageChecks env art src data runtimeVer with
      | error err =>
          constructor
          · intro p left hleft hnew
            simp only [Engine.stageLocalFile, hload, hchecks, hdisk] at hleft
            exact absurd hleft hnew
          · simp only [OtaRun.step, Engine.stageLocalFile, hload, hchecks]
            exact hinv.loaded hload
      | ok bytes =>
          constructor
          · intro p left hleft hnew
            simp only [Engine.stageLocalFile, hload, hchecks] at hleft
            exact fileSound_of_checked hinv hroot hjson hlegacy hpaths hload
              (stageChecks_ok hchecks) hleft hnew
          · simp only [OtaRun.step, Engine.stageLocalFile, hload, hchecks]
            have hloaded := hinv.loaded hload
            have hbinding := @Engine.binding_placeModule env loaded art bytes nanos hpaths
            exact hloaded.of_same rfl rfl hbinding hloaded.certified id

theorem RunInv.step (hinv : RunInv env root s) (hroot : RootKey env root log) {x : OtaStep}
    (htext : StepText env log x) (hguard : StepGuarded env s x) :
    StepSafe env log s x ∧ RunInv env root (s.step env x) := by
  have hroot' : RootKey env s.engine.pubkeyBytes log := by
    rw [hinv.pubkey]
    exact hroot
  have hkey : s.engine.pubkeyBytes ≠ [] := by
    intro hnil
    have hlen := hroot'.length
    rw [hnil] at hlen
    cases hlen
  cases x with
  | load read =>
      have hadopts := @adopts_loadManifestFile env _ _ hkey
        fun man h => (hguard man h).signed
      exact ⟨editSound_of_adopts hroot' hadopts hguard htext, hinv.adopted hadopts hguard⟩
  | fetch requireSig source fetched =>
      have hadopts := @adopts_fetchManifestBlocking env _ _ hkey
        (fun man h => (hguard man h).signed) requireSig source
      exact ⟨editSound_of_adopts hroot' hadopts hguard htext, hinv.adopted hadopts hguard⟩
  | writeBinding man nowMs =>
      refine ⟨trivial, ?_⟩
      obtain ⟨rel, hchain⟩ := hguard
      have hbinds := bindsKey_eq hchain
      rw [hinv.pubkey] at hchain
      rcases writeReleaseBinding_cases (e := s.engine) hchain htext with
        ⟨hnone, hsame⟩ | ⟨hbinding, hpubkey, hdisk, hkeys⟩
      · have hstep : s.step env (.writeBinding man nowMs) = s := by
          simp only [OtaRun.step, hsame, hbinds, hnone, Option.isSome_none, Bool.or_false]
        rw [hstep]
        exact hinv
      · constructor
        · exact hpubkey.trans hinv.pubkey
        · intro key hkey'
          rcases hkeys key hkey' with hold | hcertified
          · exact hinv.certified key hold
          · exact hcertified
        · exact hbinding
        · intro _
          exact Or.inr hdisk
  | loadBinding =>
      refine ⟨trivial, ?_⟩
      cases hload : s.engine.loadReleaseBinding env with
      | error err =>
          simp only [OtaRun.step, hload]
          exact hinv
      | ok loaded =>
          simp only [OtaRun.step, hload]
          exact hinv.loaded hload
  | stage art src data runtimeVer nanos =>
      have hlegacy := hguard.1
      rw [hinv.pubkey] at hlegacy
      exact stage_safe hinv hroot htext hlegacy hguard.2
  | activate name version =>
      refine ⟨trivial, ?_⟩
      have hsame := @Engine.activate_same env s.engine name version
      have hbinding := @Engine.binding_activate env s.engine name version hguard
      apply hinv.of_same
      · rw [hsame]
      · rw [hsame]
      · exact hbinding
      · rw [hsame]
        exact hinv.certified
      · rw [hsame]
        exact id

end Steps

/-! ## Runs under guard -/

/-- Every guarded run installs signed files only, below their version
directories.  The engine may hold a certified key from an earlier run. -/
theorem installs_only_signed {env : EngineEnv} {log : List Statement} {e : Engine}
    {steps : List OtaStep} (hroot : RootKey env e.pubkeyBytes log)
    (hkey : ∀ key, e.releaseKey = some key → KeyCertified env e.pubkeyBytes key)
    (hbinding : BindingCertified env e.pubkeyBytes e)
    (hguarded : Along (OtaRun.step env) (fun s x => StepText env log x ∧ StepGuarded env s x)
      ⟨e, false⟩ steps) :
    Along (OtaRun.step env) (StepSafe env log) ⟨e, false⟩ steps := by
  have hstart : RunInv env e.pubkeyBytes ⟨e, false⟩ :=
    { pubkey := rfl
      certified := hkey
      binding := hbinding
      bound := fun h => absurd h Bool.false_ne_true }
  apply hguarded.steps (I := RunInv env e.pubkeyBytes) _ hstart
  intro s x hinv hx
  exact hinv.step hroot hx.1 hx.2

def emptyHash : String := "e3b0c44298fc1c149afbf4c8996fb92427ae41e4649b934ca495991b7852b855"

def moduleSample : ModuleArtifact := { artifactSample with sha256 := emptyHash }

def moduleText (asset : String) : String :=
  "\x7b\n  \"name\": \"analyze\",\n  \"version\": \"1.0.0\",\n  \"abi\": 1,\n" ++
    "  \"requires_major\": 6,\n  \"min_runtime_minor\": 0,\n  \"max_runtime_minor\": null,\n" ++
    "  \"asset\": \"" ++ asset ++ "\",\n  \"sha256\": \"" ++ emptyHash ++ "\",\n  \"sig\": \"" ++
    lineSig ++ "\",\n  \"sig2\": null,\n  \"domain\": \"\"\n\x7d"

def hostEnv (line : Bytes) : EngineEnv where
  toOtaEnv := { signedEnv line with sha256Hex := fun b => if b = [] then emptyHash else "" }
  cwd := []
  hostArch := "x86_64"
  parseVersion _ := .ok (6, 0)
  sortVersions := id
  prettyJson _ := ""
  parseJson _ := .error "EOF while parsing a value at line 1 column 0"
  prettyArtifact art := moduleText art.asset
  parseArtifact _ := .error "EOF while parsing a value at line 1 column 0"
  debugPath p := "\"" ++ String.ofList p ++ "\""

def freshEngine : Engine := ⟨"/srv/modules".toList, sampleRoot, none, Disk.empty⟩

theorem hostEnv_signed_iff {line : Bytes} {key msg : Bytes} {sig : String} :
    Signed (hostEnv line).toOtaEnv key msg sig ↔ Signed (signedEnv line) key msg sig :=
  Iff.rfl

theorem hostEnv_message {line : Bytes} {msg : Bytes} {sig : String}
    (h : Signed (hostEnv line).toOtaEnv sampleRoot msg sig) :
    msg = line ∨ msg = manifestSampleText := by
  obtain ⟨-, -, raw, -, -, hverify⟩ := signed_iff.mp h
  rcases of_decide_eq_true hverify with ⟨-, hmsg⟩ | ⟨-, hmsg⟩
  · exact Or.inl hmsg
  · exact Or.inr hmsg

theorem hostEnv_body (line : Bytes) :
    manifestSignMessage (hostEnv line).toOtaEnv manifestSample = manifestSampleText := by
  simp [manifestSignMessage, hostEnv, signedEnv]

theorem hostEnv_rootKey {x : Statement} (hfree : ∀ p ∈ x.fields, '|' ∉ p.toList) {line : Bytes}
    (hline : x.message (hostEnv line).toOtaEnv = line) :
    RootKey (hostEnv line) sampleRoot [x, .manifest manifestSample] := by
  constructor
  · exact List.length_replicate
  · intro msg sig h
    rcases hostEnv_message h with rfl | rfl
    · exact ⟨x, List.mem_cons_self, hline⟩
    · exact ⟨.manifest manifestSample, by simp, hostEnv_body line⟩
  · exact signedEnv_binds line
  · intro y hy p hp
    rcases List.mem_pair.mp hy with rfl | rfl
    · exact hfree p hp
    · cases hp

def escapingSample : ModuleArtifact := { moduleSample with asset := "./../../../../evil.so" }

/-- The asset is joined as it comes, and the legacy line does not sign it: a
signed module is installed outside the modules tree. -/
theorem asset_escapes_modules :
    RootKey (hostEnv (barLine (legacyParts moduleSample))) sampleRoot
        [.artifactV1 moduleSample, .manifest manifestSample] ∧
      ¬ Along (OtaRun.step (hostEnv (barLine (legacyParts moduleSample))))
        (StepSafe (hostEnv (barLine (legacyParts moduleSample)))
          [.artifactV1 moduleSample, .manifest manifestSample])
        ⟨freshEngine, false⟩
        [.stage escapingSample "/in.so".toList (some []) "6.0.21" 0] := by
  refine ⟨hostEnv_rootKey (by decide) rfl, ?_⟩
  intro hsafe
  have haccepted : verifyArtifactSig (hostEnv (barLine (legacyParts moduleSample))).toOtaEnv
      sampleRoot escapingSample = .ok () := by
    have hlegacy : verifyBytes (hostEnv (barLine (legacyParts moduleSample))).toOtaEnv sampleRoot
        (artifactSignMessageV1 escapingSample) escapingSample.sig = .ok () :=
      hostEnv_signed_iff.mpr (line_signed (barLine (legacyParts moduleSample)))
    unfold verifyArtifactSig
    split
    · rfl
    · exact hlegacy
  have hchecks : freshEngine.stageChecks (hostEnv (barLine (legacyParts moduleSample)))
      escapingSample "/in.so".toList (some []) "6.0.21" = .ok [] := by
    have hchain : verifyArtifactSigChain (hostEnv (barLine (legacyParts moduleSample))).toOtaEnv
        freshEngine.pubkeyBytes none escapingSample = .ok () := by
      unfold verifyArtifactSigChain
      rw [show freshEngine.pubkeyBytes = sampleRoot from rfl, haccepted]
      rfl
    have hcompat : Engine.checkCompat (hostEnv (barLine (legacyParts moduleSample))) escapingSample
        "6.0.21" = .ok () := rfl
    unfold Engine.stageChecks
    rw [hcompat]
    show (verifyArtifactSigChain (hostEnv (barLine (legacyParts moduleSample))).toOtaEnv
        freshEngine.pubkeyBytes none escapingSample >>= fun _ => Engine.verifyFileSha256
          (hostEnv (barLine (legacyParts moduleSample))) "/in.so".toList (some [])
          escapingSample.sha256) = .ok []
    rw [hchain]
    simp [Engine.verifyFileSha256, hostEnv, escapingSample, moduleSample, bind, Except.bind]
  have hload : freshEngine.loadReleaseBinding (hostEnv (barLine (legacyParts moduleSample))) =
      .ok freshEngine := rfl
  have hread : (freshEngine.stageLocalFile (hostEnv (barLine (legacyParts moduleSample)))
      escapingSample "/in.so".toList (some []) "6.0.21" 0).2.disk.read
        (freshEngine.destPlace (hostEnv (barLine (legacyParts moduleSample))) escapingSample) =
          some [] := by
    simp only [Engine.stageLocalFile, hload, hchecks]
    have hapart : freshEngine.destPlace (hostEnv (barLine (legacyParts moduleSample)))
        escapingSample ≠ freshEngine.metaPlace (hostEnv (barLine (legacyParts moduleSample)))
          escapingSample := by decide
    rw [Engine.read_placeModule, if_neg hapart, if_pos rfl]
  have hempty : ∀ q, freshEngine.disk.read q ≠ some [] := by
    intro q hq
    cases hq
  have hsound := hsafe.1 (freshEngine.destPlace
    (hostEnv (barLine (legacyParts moduleSample))) escapingSample) [] hread (hempty _)
  have hescaped : ¬ "versions".toList :: freshEngine.modules
      (hostEnv (barLine (legacyParts moduleSample))) <:+ freshEngine.destPlace
        (hostEnv (barLine (legacyParts moduleSample))) escapingSample := by decide
  exact hescaped hsound.inModules

/-! ## A release with a key of its own -/

def sigText (quad last : String) : String := String.join (List.replicate 21 quad) ++ last

def keyHex (digit : Char) : String := String.ofList ((List.replicate 32 ['0', digit]).flatten)

def signedTwice : ModuleArtifact :=
  { moduleSample with sig := sigText "AQEB" "AQ==", sig2 := some (sigText "BAQE" "BA==") }

def releaseManifest (buildId : String) (digit : Char) (modules : List ModuleArtifact)
    (sig cert : String) : ReleaseManifest :=
  { manifestSample with
    modules := modules, sig := some sig, buildId := some buildId,
    releasePubkey := some (keyHex digit), releaseCert := some cert }

def firstRelease : ReleaseManifest :=
  releaseManifest "b1" '9' [signedTwice] (sigText "AgIC" "Ag==") (sigText "AwMD" "Aw==")

def secondRelease : ReleaseManifest :=
  releaseManifest "b2" '8' [] (sigText "BQUF" "BQ==") (sigText "BgYG" "Bg==")

def releaseText (buildId : String) (digit : Char) (modules : String) : Bytes := asBytes
  ("\x7b\"build_id\":\"" ++ buildId ++ "\",\"channel\":\"stable\",\"fe\":null,\"modules\":[" ++
    modules ++ "],\"product\":\"greenpng\",\"release_pubkey\":\"" ++ keyHex digit ++
    "\",\"runtime\":\x7b\"abi\":1,\"asset\":null,\"sha256\":null,\"version\":\"6.0.21\"\x7d\x7d")

def firstText : Bytes := releaseText "b1" '9'
  ("\x7b\"abi\":1,\"asset\":\"libanalyze.so\",\"domain\":\"\",\"max_runtime_minor\":null," ++
    "\"min_runtime_minor\":0,\"name\":\"analyze\",\"requires_major\":6,\"sha256\":\"" ++ emptyHash ++
    "\",\"version\":\"1.0.0\"\x7d")

def secondText : Bytes := releaseText "b2" '8' ""

def sigRaw (i : UInt8) : Bytes := List.replicate 64 i

def keyRaw (i : UInt8) : Bytes := List.replicate 32 i

def signatures : List (Bytes × Bytes × Bytes) :=
  [(sigRaw 1, sampleRoot, artifactSignMessage signedTwice), (sigRaw 2, sampleRoot, firstText),
    (sigRaw 3, sampleRoot, releaseCertMessage "6.0.21" "b1" (keyHex '9')),
    (sigRaw 4, keyRaw 9, artifactSignMessage signedTwice),
    (sigRaw 5, sampleRoot, secondText),
    (sigRaw 6, sampleRoot, releaseCertMessage "6.0.21" "b2" (keyHex '8'))]

def signerOf (raw : Bytes) : Option (Bytes × Bytes) :=
  (signatures.find? fun s => decide (s.1 = raw)).map Prod.snd

def bindingText (buildId : String) (digit : Char) : String :=
  "\x7b\n  \"build_id\": \"" ++ buildId ++ "\",\n  \"release_pubkey\": \"" ++ keyHex digit ++
    "\",\n  \"verified_ms\": 0\n\x7d"

def bindingOf (buildId : String) (digit : Char) : Json :=
  Engine.bindingJson (some buildId) (keyHex digit) 0

def signedTwiceText : String :=
  "\x7b\n  \"name\": \"analyze\",\n  \"version\": \"1.0.0\",\n  \"abi\": 1,\n" ++
    "  \"requires_major\": 6,\n  \"min_runtime_minor\": 0,\n  \"max_runtime_minor\": null,\n" ++
    "  \"asset\": \"libanalyze.so\",\n  \"sha256\": \"" ++ emptyHash ++ "\",\n  \"sig\": \"" ++
    sigText "AQEB" "AQ==" ++ "\",\n  \"sig2\": \"" ++ sigText "BAQE" "BA==" ++
    "\",\n  \"domain\": \"\"\n\x7d"

def releaseEnv : EngineEnv where
  b64Decode s :=
    if s = sigText "AQEB" "AQ==" then some (sigRaw 1)
    else if s = sigText "AgIC" "Ag==" then some (sigRaw 2)
    else if s = sigText "AwMD" "Aw==" then some (sigRaw 3)
    else if s = sigText "BAQE" "BA==" then some (sigRaw 4)
    else if s = sigText "BQUF" "BQ==" then some (sigRaw 5)
    else if s = sigText "BgYG" "Bg==" then some (sigRaw 6)
    else none
  hexDecode s :=
    if s = keyHex '9' then some (keyRaw 9)
    else if s = keyHex '8' then some (keyRaw 8)
    else none
  keyFromBytes _ := .ok ()
  ed25519Verify key msg raw := signerOf raw = some (key, msg)
  toVec v :=
    if v = manifestBody firstRelease then firstText
    else if v = manifestBody secondRelease then secondText
    else [123, 125]
  sha256Hex b := if b = [] then emptyHash else ""
  cwd := []
  hostArch := "x86_64"
  parseVersion _ := .ok (6, 0)
  sortVersions := id
  prettyJson v :=
    if v = bindingOf "b1" '9' then bindingText "b1" '9'
    else if v = bindingOf "b2" '8' then bindingText "b2" '8'
    else ""
  parseJson t :=
    if t = bindingText "b1" '9' then .ok (bindingOf "b1" '9')
    else if t = bindingText "b2" '8' then .ok (bindingOf "b2" '8')
    else .error "EOF while parsing a value at line 1 column 0"
  prettyArtifact _ := signedTwiceText
  parseArtifact t :=
    if t = signedTwiceText then .ok signedTwice
    else .error "EOF while parsing a value at line 1 column 0"
  debugPath p := "\"" ++ String.ofList p ++ "\""

def releaseLog : List Statement :=
  [.artifactV2 signedTwice, .manifest firstRelease, .certificate "6.0.21" "b1" (keyHex '9'),
    .manifest secondRelease, .certificate "6.0.21" "b2" (keyHex '8')]

theorem signed_of_signerOf {key msg raw : Bytes} {sig : String} (hlen : key.length = 32)
    (hraw : releaseEnv.b64Decode sig = some raw) (hrawLen : raw.length = 64)
    (h : signerOf raw = some (key, msg)) : Signed releaseEnv.toOtaEnv key msg sig :=
  signed_iff.mpr ⟨hlen, rfl, raw, hraw, hrawLen, decide_eq_true h⟩

theorem signerOf_of_signed {key msg : Bytes} {sig : String}
    (h : Signed releaseEnv.toOtaEnv key msg sig) :
    ∃ raw, releaseEnv.b64Decode sig = some raw ∧ signerOf raw = some (key, msg) := by
  obtain ⟨-, -, raw, hraw, -, hverify⟩ := signed_iff.mp h
  exact ⟨raw, hraw, of_decide_eq_true hverify⟩

theorem mem_signatures_of_signed {key msg : Bytes} {sig : String}
    (h : Signed releaseEnv.toOtaEnv key msg sig) : ∃ raw, (raw, key, msg) ∈ signatures := by
  obtain ⟨raw, -, hsigner⟩ := signerOf_of_signed h
  obtain ⟨entry, hfind, hentry⟩ := Option.map_eq_some_iff.mp hsigner
  have hmem := List.mem_of_find?_eq_some hfind
  refine ⟨entry.1, ?_⟩
  rw [← hentry]
  exact hmem

theorem releaseEnv_secondBody : manifestBody secondRelease ≠ manifestBody firstRelease := by
  intro h
  have hbuild := (sameCovered_of_body h).buildId
  exact absurd hbuild (by decide)

theorem releaseEnv_toVec : releaseEnv.toVec (manifestBody firstRelease) = firstText ∧
    releaseEnv.toVec (manifestBody secondRelease) = secondText := by
  constructor
  · simp only [releaseEnv, if_true]
  · simp only [releaseEnv, if_neg releaseEnv_secondBody, if_true]

theorem releaseEnv_rootKey : RootKey releaseEnv sampleRoot releaseLog := by
  constructor
  · exact List.length_replicate
  · intro msg sig h
    obtain ⟨raw, hmem⟩ := mem_signatures_of_signed h
    simp only [signatures, List.mem_cons, Prod.mk.injEq, List.not_mem_nil, or_false] at hmem
    rcases hmem with ⟨-, -, rfl⟩ | ⟨-, -, rfl⟩ | ⟨-, -, rfl⟩ | ⟨-, hkey, -⟩ | ⟨-, -, rfl⟩ |
      ⟨-, -, rfl⟩
    · exact ⟨.artifactV2 signedTwice, by simp [releaseLog], rfl⟩
    · exact ⟨.manifest firstRelease, by simp [releaseLog], releaseEnv_toVec.1⟩
    · exact ⟨.certificate "6.0.21" "b1" (keyHex '9'), by simp [releaseLog], rfl⟩
    · exact absurd hkey (by decide)
    · exact ⟨.manifest secondRelease, by simp [releaseLog], releaseEnv_toVec.2⟩
    · exact ⟨.certificate "6.0.21" "b2" (keyHex '8'), by simp [releaseLog], rfl⟩
  · intro msg msg' sig h h'
    obtain ⟨raw, hraw, hsigner⟩ := signerOf_of_signed h
    obtain ⟨raw', hraw', hsigner'⟩ := signerOf_of_signed h'
    rw [hraw] at hraw'
    cases hraw'
    rw [hsigner] at hsigner'
    cases hsigner'
    rfl
  · decide

theorem releaseEnv_jsonText : JsonText releaseEnv.toOtaEnv (releaseLog.flatMap Statement.bodies) := by
  have hbodies : releaseLog.flatMap Statement.bodies =
      [manifestBody firstRelease, manifestBody secondRelease] := rfl
  have hapart : firstText ≠ secondText := by decide
  rw [hbodies]
  constructor
  · intro v hv
    rcases List.mem_pair.mp hv with rfl | rfl
    · rw [releaseEnv_toVec.1]
      decide
    · rw [releaseEnv_toVec.2]
      decide
  · intro v hv w hw hsame
    rcases List.mem_pair.mp hv with rfl | rfl
    · rcases List.mem_pair.mp hw with rfl | rfl
      · rfl
      · rw [releaseEnv_toVec.1, releaseEnv_toVec.2] at hsame
        exact absurd hsame hapart
    · rcases List.mem_pair.mp hw with rfl | rfl
      · rw [releaseEnv_toVec.1, releaseEnv_toVec.2] at hsame
        exact absurd hsame.symm hapart
      · rfl

theorem chain_of_signed {env : OtaEnv} {root key : Bytes} {man : ReleaseManifest}
    {sig pk cert buildId : String} (hsig : nonEmpty man.sig = some sig)
    (hbody : Signed env root (manifestSignMessage env man) sig) (hdata : man.dataTree = none)
    (hpk : nonEmpty man.releasePubkey = some pk) (hcert : nonEmpty man.releaseCert = some cert)
    (hbuild : nonEmpty man.buildId = some buildId)
    (hcertified : Signed env root (releaseCertMessage man.runtime.version buildId pk) cert)
    (hhex : env.hexDecode pk = some key) (hlen : key.length = 32)
    (hkey : env.keyFromBytes key = .ok ()) : verifyManifestChain env root man = .ok (some key) := by
  unfold Signed at hbody hcertified
  unfold verifyManifestChain verifyManifestSig verifyManifestSigData verifyReleaseCert
  simp [hsig, hbody, hdata, hpk, hcert, hbuild, hcertified, hhex, hlen, hkey, bind, Except.bind,
    pure, Except.pure]

theorem firstRelease_verifies : verifyManifestChain releaseEnv.toOtaEnv sampleRoot firstRelease =
    .ok (some (keyRaw 9)) := by
  have hbody : Signed releaseEnv.toOtaEnv sampleRoot
      (manifestSignMessage releaseEnv.toOtaEnv firstRelease) (sigText "AgIC" "Ag==") := by
    have hmessage : manifestSignMessage releaseEnv.toOtaEnv firstRelease = firstText :=
      releaseEnv_toVec.1
    rw [hmessage]
    exact @signed_of_signerOf _ _ (sigRaw 2) _ List.length_replicate (by decide)
      List.length_replicate rfl
  have hcert : Signed releaseEnv.toOtaEnv sampleRoot
      (releaseCertMessage "6.0.21" "b1" (keyHex '9')) (sigText "AwMD" "Aw==") :=
    @signed_of_signerOf _ _ (sigRaw 3) _ List.length_replicate (by decide)
      List.length_replicate rfl
  exact chain_of_signed (by decide) hbody rfl (by decide) (by decide) (by decide) hcert (by decide)
    List.length_replicate rfl

theorem firstBinding_reads (pk : String) (h : nonEmpty firstRelease.releasePubkey = some pk) :
    releaseEnv.parseJson (releaseEnv.prettyJson (Engine.bindingJson firstRelease.buildId pk 0)) =
      .ok (Engine.bindingJson firstRelease.buildId pk 0) := by
  have hpk : pk = keyHex '9' := by
    have hsome : nonEmpty firstRelease.releasePubkey = some (keyHex '9') := by decide
    rw [hsome] at h
    exact (Option.some.inj h).symm
  have hjson : Engine.bindingJson firstRelease.buildId (keyHex '9') 0 = bindingOf "b1" '9' := rfl
  rw [hpk, hjson]
  simp [releaseEnv]

theorem signedTwice_not_legacy : ¬ Signed releaseEnv.toOtaEnv sampleRoot
    (artifactSignMessageV1 signedTwice) signedTwice.sig := by
  intro h
  obtain ⟨raw, hmem⟩ := mem_signatures_of_signed h
  have hapart : ∀ entry ∈ signatures, entry.2.2 ≠ artifactSignMessageV1 signedTwice := by decide
  exact hapart _ hmem rfl

def boundStart : Engine := (freshEngine.writeReleaseBinding releaseEnv firstRelease 0).2

theorem boundStart_certified : BindingCertified releaseEnv sampleRoot boundStart ∧
    boundStart.pubkeyBytes = sampleRoot ∧
    ∀ key, boundStart.releaseKey = some key → KeyCertified releaseEnv sampleRoot key := by
  unfold boundStart
  rcases writeReleaseBinding_cases (e := freshEngine) firstRelease_verifies firstBinding_reads with
    ⟨hnone, -⟩ | ⟨hbinding, hpubkey, -, hkeys⟩
  · cases hnone
  · refine ⟨hbinding, hpubkey, ?_⟩
    intro key hkey
    rcases hkeys key hkey with hold | hcertified
    · cases hold
    · exact hcertified

/-- The key is read back, the manifest loaded and bound again, and a module of it staged
and activated. -/
def boundSteps : List OtaStep :=
  [.loadBinding, .load (.ok firstRelease), .writeBinding firstRelease 0,
    .stage signedTwice "/in.so".toList (some []) "6.0.21" 0, .activate "analyze" "1.0.0"]

theorem boundSteps_guarded {s : OtaRun} (hpubkey : s.engine.pubkeyBytes = sampleRoot) :
    ∀ x ∈ boundSteps, StepText releaseEnv releaseLog x ∧ StepGuarded releaseEnv s x := by
  have hname : Below "analyze".toList := by decide
  have hpaths : Engine.PathsBelow signedTwice := ⟨by decide, by decide, by decide, by decide⟩
  unfold boundSteps
  simp only [List.forall_mem_cons]
  refine ⟨⟨trivial, trivial⟩, ⟨?_, ?_⟩, ⟨firstBinding_reads, keyRaw 9, ?_⟩,
    ⟨releaseEnv_jsonText, ?_, hpaths⟩, ⟨trivial, hname⟩, List.forall_mem_nil _⟩
  · intro man hman
    cases hman
    apply releaseEnv_jsonText.mono
    exact List.cons_subset.mpr ⟨List.mem_cons_self, List.Subset.refl _⟩
  · intro man hman
    cases hman
    exact ⟨by decide, Or.inl (by decide)⟩
  · rw [hpubkey]
    exact firstRelease_verifies
  · rw [hpubkey]
    exact signedTwice_not_legacy

theorem boundSteps_run {e : Engine} (hpubkey : e.pubkeyBytes = sampleRoot)
    (hkeys : ∀ key, e.releaseKey = some key → KeyCertified releaseEnv sampleRoot key)
    (hbinding : BindingCertified releaseEnv sampleRoot e) :
    Along (OtaRun.step releaseEnv)
      (fun s x => StepText releaseEnv releaseLog x ∧ StepGuarded releaseEnv s x)
      ⟨e, false⟩ boundSteps := by
  have hstart : RunInv releaseEnv sampleRoot ⟨e, false⟩ :=
    { pubkey := hpubkey
      certified := hkeys
      binding := hbinding
      bound := fun h => absurd h Bool.false_ne_true }
  apply along_of_invariant hstart
  intro s hinv x hx
  have hguard := boundSteps_guarded hinv.pubkey x hx
  exact ⟨hguard, (hinv.step releaseEnv_rootKey hguard.1 hguard.2).2⟩

/-- The run begins with a bound key, is safe, and leaves the module where it belongs. -/
theorem installs_bound_release :
    boundStart.releaseKey = some (keyRaw 9) ∧
      Along (OtaRun.step releaseEnv) (StepSafe releaseEnv releaseLog) ⟨boundStart, false⟩
        boundSteps ∧
      (runFrom (OtaRun.step releaseEnv) ⟨boundStart, false⟩ boundSteps).engine.disk.read
        ("libanalyze.so".toList :: boundStart.versionPlace releaseEnv signedTwice) = some [] := by
  obtain ⟨hbinding, hpubkey, hkeys⟩ := boundStart_certified
  have hguarded := boundSteps_run hpubkey hkeys hbinding
  have hroot : RootKey releaseEnv boundStart.pubkeyBytes releaseLog := by
    rw [hpubkey]
    exact releaseEnv_rootKey
  rw [← hpubkey] at hkeys hbinding
  refine ⟨?_, installs_only_signed hroot hkeys hbinding hguarded, ?_⟩
  all_goals decide +kernel

end ReleaseSignature

end GrServer
