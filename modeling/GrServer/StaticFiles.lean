import GrServer.GuardedRun
import GrServer.LexicalPath
import GrServer.SortedMap

/-!
# Static file resolution

The route from a request path to a file under the static directory: version
segments, opaque content-hash names with their reverse map, content-hash
stripping, boot aliases, and the final join.  SHA-256 is a parameter.

The directory is its listing in the order the rebuild walk meets the files,
and the reverse map as `OPAQUE_MAP.json` holds it.  `ever` has no counterpart
in the source: it is the list of all files that were ever under the directory.
-/

namespace GrServer

open LexicalPath Text

namespace StaticFiles

/-! ## Names -/

def stripPrefix (p : String) (s : Text) : Option Text :=
  s.dropPrefix? p.toList

def stripSuffix (p : String) (s : Text) : Option Text :=
  s.dropSuffix? p.toList

def endsWith (s : Text) (p : String) : Bool :=
  p.toList.isSuffixOf s

def startsWithText (s : Text) (p : String) : Bool :=
  p.toList.isPrefixOf s

def containsText (s : Text) (p : String) : Bool :=
  decide (p.toList <:+: s)

def byteLen (s : Text) : ℕ :=
  (s.map Char.utf8Size).sum

def isContentHashToken (s : Text) : Bool :=
  8 ≤ byteLen s && byteLen s ≤ 16 && s.all isAsciiHexdigit

def aliasOf (table : List (List String × String)) (name : Text) : Option Text :=
  (table.find? fun row => row.1.any fun listed => listed.toList = name).map
    fun row => row.2.toList

def bootAliases : List (List String × String) := [
  (["mp.boot.min.js", "mp.boot.js", "gr.boot.js"], "gr.boot.js"),
  (["gr.boot.min.js"], "gr.boot.min.js"),
  (["gr.race.min.js"], "gr.race.min.js"),
  (["gr.entry.min.js"], "gr.entry.min.js"),
  (["gr.js", "gr.pin.js"], "gr.min.js"),
  (["gr.min.js"], "gr.min.js"),
  (["gr_seal_v2.wasm"], "gr.seal_v2.wasm"),
  (["gr_seal_v2_loader.js"], "gr.seal_v2_loader.js")]

def mapBootAlias (name : Text) : Option Text :=
  aliasOf bootAliases name

def fullPathAliases : List (List String × String) := [
  (["/dist/mp.boot.min.js", "/dist/mp.boot.js", "/dist/gr.boot.js",
    "/fe/gr.boot.js"], "gr.boot.js"),
  (["/dist/gr.boot.min.js", "/fe/gr.boot.min.js"], "gr.boot.min.js"),
  (["/dist/gr.race.min.js", "/fe/gr.race.min.js"], "gr.race.min.js"),
  (["/dist/gr.entry.min.js", "/fe/gr.entry.min.js"], "gr.entry.min.js"),
  (["/dist/gr.js", "/fe/gr.js", "/gr.js"], "gr.min.js"),
  (["/dist/gr.min.js", "/fe/gr.min.js"], "gr.min.js"),
  (["/dist/gr_seal_v2.wasm", "/fe/gr_seal_v2.wasm"], "gr.seal_v2.wasm"),
  (["/dist/gr_seal_v2_loader.js", "/fe/gr_seal_v2_loader.js"],
    "gr.seal_v2_loader.js")]

def stripVersionRoute (rel : Text) : Text :=
  let rel := trimStartMatches '/' rel
  match stripPrefix "v/" rel with
  | none => rel
  | some rest =>
      match splitOnce '/' rest with
      | none => rel
      | some (_, afterVer) =>
          match stripPrefix "g/" afterVer with
          | none => afterVer
          | some afterG =>
              match splitOnce '/' afterG with
              | none => rel
              | some (_, file) => file

/-- `stem` without a trailing hash label, with its extension back. -/
def unhashed (file stem : Text) (ext : String) : Text :=
  match rsplitOnce '.' stem with
  | some (base, hash) =>
      if isContentHashToken hash then base ++ ext.toList else file
  | none => file

def hashedExtensions : List String :=
  [".min.js", ".wasm", ".html", ".css", ".js"]

def unhashedFile (file : Text) : Text :=
  (hashedExtensions.findSome? fun ext =>
    (stripSuffix ext file).map fun stem => unhashed file stem ext).getD file

def stripContentHashFilename (rel : Text) : Text :=
  let rel := trimStartMatches '/' rel
  match rsplitOnce '/' rel with
  | none => unhashedFile rel
  | some (dir, file) =>
      if dir = [] then unhashedFile file else dir ++ '/' :: unhashedFile file

/-! ## The directory and its reverse map -/

structure StaticFile where
  rel : Text
  bytes : List UInt8

structure StaticDir where
  files : List StaticFile
  opaqueMap : Option (SortedMap Text Text)
  /-- Whether `OPAQUE_MAP.json` can be written. -/
  writable : Bool
  ever : List StaticFile

section Directory

variable (sha256Hex : List UInt8 → Text)

def sealV2Physical (logical : Text) : Text :=
  let name := trimStartMatches '/' logical
  if name = "gr_seal_v2.wasm".toList then "gr.seal_v2.wasm".toList
  else if name = "gr_seal_v2_loader.js".toList then "gr.seal_v2_loader.js".toList
  else logical

def diskName (logical : Text) : Text :=
  trimStartMatches '/' (sealV2Physical logical)

def missingToken : Text := "missing00000".toList

def fileContentHash12 (d : StaticDir) (logical : Text) : Text :=
  match d.files.find? fun f => f.rel = diskName logical with
  | some f => (sha256Hex f.bytes).take 12
  | none => missingToken

def opaquePublicFilename (logical hash : Text) : Text :=
  let logical := trimStartMatches '/' logical
  let hash := trim hash
  let hash := if hash = [] then missingToken else hash
  match hashedExtensions.find? fun ext => endsWith logical ext with
  | some ext => hash ++ ext.toList
  | none => hash ++ ".bin".toList

def opaqueMapLookup (d : StaticDir) (name : Text) : Option Text :=
  d.opaqueMap.bind fun m => m.get? name

def StaticDir.writeMap (d : StaticDir) (m : SortedMap Text Text) : StaticDir :=
  if d.writable then { d with opaqueMap := some m } else d

def opaqueMapInsert (d : StaticDir) (name logical : Text) : StaticDir :=
  d.writeMap ((d.opaqueMap.getD SortedMap.empty).insert name
    (trimStartMatches '/' logical))

def hashedAssetUrl (d : StaticDir) (logical : Text) : StaticDir :=
  opaqueMapInsert d
    (opaquePublicFilename logical (fileContentHash12 sha256Hex d logical)) logical

def recordedRel (rel : Text) : Text :=
  rel.map fun c => if c = '\\' then '/' else c

def skippedDirs : List String := ["dist", "admin", "site_templates", "node_modules"]

/-- Whether the rebuild walk reaches the file and takes it. -/
def walked (rel : Text) : Bool :=
  let lower := toAsciiLowercase (recordedRel rel)
  (components rel).dropLast.all (fun dir =>
      skippedDirs.all fun skipped => decide (dir ≠ skipped.toList)) &&
    (endsWith lower ".min.js" || endsWith lower ".wasm" ||
      endsWith lower ".html" || endsWith lower ".js") &&
    !(containsText lower ".test." || endsWith lower ".map")

def rebuildOpaqueMap (d : StaticDir) : StaticDir :=
  d.writeMap <| (d.files.filter fun f => walked f.rel).foldl
    (fun m f =>
      let rel := recordedRel f.rel
      m.insert (opaquePublicFilename rel (fileContentHash12 sha256Hex d rel)) rel)
    SortedMap.empty

/-! ## Resolution -/

/-- The path behind `/dist/` or `/fe/`, without version segments. -/
def pathNv (path : Text) : Text :=
  match stripPrefix "/dist/" path with
  | some r => stripVersionRoute r
  | none =>
      match stripPrefix "/fe/" path with
      | some r => stripVersionRoute r
      | none => path

def basename (path : Text) : Text :=
  match rsplitOnce '/' path with
  | some (_, file) => file
  | none => path

def bareToken (file : Text) : Bool :=
  (match hashedExtensions.findSome? fun ext => stripSuffix ext file with
    | some base => isContentHashToken base
    | none => false) &&
  !containsText file "gr" && !containsText file "registry" &&
  !containsText file "pack_loader" && !containsText file "nest_frame" &&
  file.count '.' ≤ 2

/-- The looked-up logical name of an opaque file name; a cold map is rebuilt
once. -/
def opaqueLogical (file : Text) (d : StaticDir) : Option Text × StaticDir :=
  if bareToken file then
    match opaqueMapLookup d file with
    | some logical => (some logical, d)
    | none =>
        let d := rebuildOpaqueMap sha256Hex d
        (opaqueMapLookup d file, d)
  else (none, d)

def mapLogical (logical : Text) : Text :=
  (mapBootAlias logical).getD logical

def fixedRel (path : Text) : Option Text :=
  match aliasOf fullPathAliases path with
  | some rel => some rel
  | none =>
      if startsWithText path "/dist/" || startsWithText path "/fe/" then
        some (mapLogical (stripContentHashFilename (pathNv path)))
      else none

def staticRel (path : Text) (d : StaticDir) : Option Text × StaticDir :=
  match opaqueLogical sha256Hex (basename (pathNv path)) d with
  | (some logical, d) => (some (mapLogical logical), d)
  | (none, d) => (fixedRel path, d)

def cleanRel (rel : Text) : Text :=
  deletePairs '.' (trimStartMatches '/' rel)

def resolveStatic (root rel : Text) : Joined :=
  join root (cleanRel rel)

inductive Event where
  | deploy (files : List StaticFile) (writable keepMap : Bool)
  | bootstrap
  | assetUrl (logical : Text)
  | request (path : Text)

def fresh : StaticDir where
  files := []
  opaqueMap := none
  writable := true
  ever := []

def step (d : StaticDir) : Event → StaticDir
  | .deploy files writable keepMap =>
      { files := files
        opaqueMap := if keepMap then d.opaqueMap else none
        writable := writable
        ever := d.ever ++ files }
  | .bootstrap => rebuildOpaqueMap sha256Hex d
  | .assetUrl logical => hashedAssetUrl sha256Hex d logical
  | .request path => (staticRel sha256Hex path d).2

end Directory

end StaticFiles

end GrServer
