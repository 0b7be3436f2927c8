import VSwarm.Lib.FileSystem
import VSwarm.Lib.Text

/-! `artifacts.py`: the download of a release.  The HTTP library and the
decompression by `pigz` and `tar` are the environment. -/

namespace VSwarm.Resources

open VSwarm.Lib

abbrev Bytes := List UInt8

inductive Os | focal | jammy
  deriving DecidableEq

def Os.text : Os → String
  | .focal => "focal"
  | .jammy => "jammy"

inductive Arch | amd64 | arm64
  deriving DecidableEq

def Arch.text : Arch → String
  | .amd64 => "amd64"
  | .arm64 => "arm64"

inductive Dir | cwd | temp | other
  deriving DecidableEq

abbrev Path := Dir × String

structure Args where
  osVersion : Os := .focal
  arch : Arch := .amd64
  output : Dir := .other

structure Asset where
  name : String
  base : String
  content : Bytes
  plain : '/' ∉ name.toList

def Asset.url (a : Asset) : String := a.base ++ "/" ++ a.name

/-- A release, with the disk image that its parts for the requested system were
made from. -/
structure Release where
  assets : List Asset
  image : Bytes

structure Response where
  contentLength : Nat
  body : Bytes

/-- `get i url` answers the `i`-th request.  `extract` gives what the unpacked
image holds when the script stops waiting for the decompression of an archive,
over what was there before. -/
structure Environment where
  get : Nat → String → Response
  extract : Bytes → Option Bytes → Option Bytes

structure World where
  files : FileSystem Path Bytes
  gets : Nat := 0
  log : List String := []

inductive Exc
  | notFound (text : String)
  | noSuchFile (path : Path)
  deriving DecidableEq

def download (env : Environment) (url : String) (v : World) : Bytes × World :=
  let response := env.get v.gets url
  let failed := response.contentLength ≠ 0 ∧ response.body.length ≠ response.contentLength
  (response.body,
    { v with
      gets := v.gets + 1
      log := if failed then v.log ++ ["ERROR, something went wrong"] else v.log })

def basename (url : String) : String :=
  String.ofList ((url.toList.splitOn '/').getLast?.getD [])

def downloadAsset (env : Environment) (url : String) (v : World) : World :=
  let file := (Dir.cwd, basename url)
  let v := { v with files := v.files.write file [] }
  let (body, v) := download env url v
  { v with files := v.files.write file body }

def tmpfile : Path := (.cwd, "disk.tmp")

def unpacked : Path := (.temp, "disk-image.qcow2")

def downloadParts (env : Environment) : List String → World → World
  | [], v => v
  | url :: urls, v =>
    let (body, v) := download env url v
    downloadParts env urls
      { v with files := v.files.write tmpfile ((v.files tmpfile).getD [] ++ body) }

def decompressParallel (env : Environment) (tarFile : Path) (v : World) : World :=
  -- the exit statuses of `pigz` and `tar` are not looked at
  let image := env.extract ((v.files tarFile).getD []) (v.files unpacked)
  { v with files := Function.update v.files unpacked image }

def downloadDiskImage (env : Environment) (urls : List String) (v : World) : World :=
  let v := { v with files := v.files.write tmpfile [] }
  let v := downloadParts env urls v
  let v := decompressParallel env tmpfile v
  { v with files := v.files.remove tmpfile }

def Asset.hasName (name : String) (a : Asset) : Bool := Text.contains name.toList a.name.toList

def Release.getUrl (r : Release) (name : String) : Option String :=
  (r.assets.find? (·.hasName name)).map Asset.url

def Release.getUrls (r : Release) (name : String) : List String :=
  (r.assets.filter fun a => !a.hasName "sums" && a.hasName name).map Asset.url

def kernelName (args : Args) : String := "vmlinux-" ++ args.osVersion.text ++ "-" ++ args.arch.text

def clientName (args : Args) : String := "test-client-" ++ args.arch.text

def diskName (args : Args) : String :=
  "disk-image-" ++ args.osVersion.text ++ "-" ++ args.arch.text ++ ".qcow2"

/-- A sequence of `shutil.move`; the first whose source is missing raises. -/
def moveAll : List (Path × Path) → World → World × Option Exc
  | [], v => (v, none)
  | (src, dst) :: moves, v =>
    match v.files.move src dst with
    | none => (v, some (.noSuchFile src))
    | some files => moveAll moves { v with files := files }

def downloadMoveAssets (args : Args) (r : Release) (env : Environment) (v : World) :
    World × Option Exc :=
  match r.getUrl (kernelName args) with
  | none => (v, some (.notFound ("kernel not found!: " ++ kernelName args)))
  | some kernelUrl =>
    let v := downloadAsset env kernelUrl v
    match r.getUrl (clientName args) with
    | none => (v, some (.notFound ("client not found!: " ++ clientName args)))
    | some clientUrl =>
      let v := downloadAsset env clientUrl v
      -- the test `len(disk_urls) == None` that follows the lookup never holds
      let v := downloadDiskImage env (r.getUrls (diskName args)) v
      moveAll [((.cwd, basename kernelUrl), (args.output, "kernel")),
        ((.cwd, basename clientUrl), (args.output, "client")),
        (unpacked, (args.output, "disk-image.qcow2"))] v

def Installed (args : Args) (r : Release) (v : World) : Prop :=
  ∃ kernel client, r.assets.find? (·.hasName (kernelName args)) = some kernel ∧
    r.assets.find? (·.hasName (clientName args)) = some client ∧
    r.getUrls (diskName args) ≠ [] ∧
    v.files (args.output, "kernel") = some kernel.content ∧
    v.files (args.output, "client") = some client.content ∧
    v.files (args.output, "disk-image.qcow2") = some r.image

def Untouched (args : Args) (v v' : World) : Prop :=
  ∀ name ∈ ["kernel", "client", "disk-image.qcow2"],
    v'.files (args.output, name) = v.files (args.output, name)

def AllOrNothing (args : Args) (r : Release) (env : Environment) (v : World) : Prop :=
  match downloadMoveAssets args r env v with
  | (v', none) => Installed args r v'
  | (v', some _) => Untouched args v v'

end VSwarm.Resources
