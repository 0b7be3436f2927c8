import VSwarm.Defs.Resources.Artifacts

namespace VSwarm.Resources

open VSwarm.Lib

variable {args : Args} {r : Release} {env : Environment} {v : World}
variable {kernel client a : Asset} {urls : List String} {p : Path}

@[simp] theorem basename_url (a : Asset) : basename a.url = a.name := by
  have hsplit : a.url.toList.splitOn '/' = a.base.toList.splitOn '/' ++ [a.name.toList] := by
    have hurl : a.url.toList = a.base.toList ++ '/' :: a.name.toList := by simp [Asset.url]
    rw [hurl, List.splitOn_append_cons_self, List.splitOn_eq_singleton a.plain]
  simp [basename, hsplit]

theorem Asset.length_le {name : String} (h : a.hasName name) :
    name.toList.length ≤ a.name.toList.length :=
  (of_decide_eq_true h : name.toList <:+: a.name.toList).length_le

theorem length_kernelName (args : Args) : 17 ≤ (kernelName args).toList.length := by
  unfold kernelName
  cases args.osVersion <;> cases args.arch <;> decide

theorem length_clientName (args : Args) : 17 ≤ (clientName args).toList.length := by
  unfold clientName
  cases args.arch <;> decide

def fixedNames : List String := ["kernel", "client", "disk-image.qcow2", "disk.tmp"]

theorem kernel_mem_fixedNames : "kernel" ∈ fixedNames := by decide

theorem client_mem_fixedNames : "client" ∈ fixedNames := by decide

theorem disk_mem_fixedNames : "disk-image.qcow2" ∈ fixedNames := by decide

theorem notMem_fixedNames {name : String} (hname : 17 ≤ name.toList.length)
    (h : a.hasName name) : a.name ∉ fixedNames := by
  have hshort : ∀ n ∈ fixedNames, n.toList.length < 17 := by decide
  intro hmem
  have := hshort _ hmem
  have := Asset.length_le h
  omega

def received (env : Environment) : Nat → List String → Bytes
  | _, [] => []
  | i, url :: urls => (env.get i url).body ++ received env (i + 1) urls

theorem downloadAsset_files (env : Environment) (a : Asset) (v : World) :
    (downloadAsset env a.url v).files =
      v.files.write (.cwd, a.name) (env.get v.gets a.url).body := by
  simp [downloadAsset, download, FileSystem.write]

theorem downloadParts_tmpfile {b : Bytes} (h : v.files tmpfile = some b) :
    (downloadParts env urls v).files tmpfile = some (b ++ received env v.gets urls) := by
  induction urls generalizing v b with
  | nil => simp [downloadParts, received, h]
  | cons url urls ih =>
    simp only [downloadParts, received, download]
    rw [ih (b := b ++ (env.get v.gets url).body) (by simp [h])]
    simp

theorem downloadParts_files (h : p ≠ tmpfile) :
    (downloadParts env urls v).files p = v.files p := by
  induction urls generalizing v with
  | nil => rfl
  | cons url urls ih => simp [downloadParts, download, ih, FileSystem.write_of_ne h]

theorem downloadDiskImage_unpacked (env : Environment) (urls : List String) (v : World) :
    (downloadDiskImage env urls v).files unpacked =
      env.extract (received env v.gets urls) (v.files unpacked) := by
  have hne : unpacked ≠ tmpfile := by decide
  simp only [downloadDiskImage, decompressParallel]
  rw [FileSystem.remove_of_ne hne, Function.update_self, downloadParts_files hne,
    downloadParts_tmpfile (b := []) (by simp)]
  simp [FileSystem.write_of_ne hne]

theorem downloadDiskImage_files (htmp : p ≠ tmpfile) (himage : p ≠ unpacked) :
    (downloadDiskImage env urls v).files p = v.files p := by
  simp only [downloadDiskImage, decompressParallel]
  rw [FileSystem.remove_of_ne htmp, Function.update_of_ne himage, downloadParts_files htmp]
  exact FileSystem.write_of_ne htmp _

theorem Untouched.of_files {v' : World}
    (h : ∀ p : Path, p.2 ∈ fixedNames → v'.files p = v.files p) : Untouched args v v' := by
  intro name hname
  exact h _ (List.mem_append_left ["disk.tmp"] hname)

theorem ne_of_fixed (ha : a.name ∉ fixedNames) (hp : p.2 ∈ fixedNames) : p ≠ (.cwd, a.name) := by
  rintro rfl
  exact ha hp

theorem downloadAsset_files_fixed (ha : a.name ∉ fixedNames) (hp : p.2 ∈ fixedNames) :
    (downloadAsset env a.url v).files p = v.files p := by
  rw [downloadAsset_files, FileSystem.write_of_ne (ne_of_fixed ha hp)]

def kernelBody (env : Environment) (v : World) (kernel : Asset) : Bytes :=
  (env.get v.gets kernel.url).body

def clientBody (env : Environment) (v : World) (client : Asset) : Bytes :=
  (env.get (v.gets + 1) client.url).body

def image (args : Args) (r : Release) (env : Environment) (v : World) : Option Bytes :=
  env.extract (received env (v.gets + 2) (r.getUrls (diskName args))) (v.files unpacked)

def staged (args : Args) (r : Release) (env : Environment) (v : World) (kernel client : Asset) :
    World :=
  downloadDiskImage env (r.getUrls (diskName args))
    (downloadAsset env client.url (downloadAsset env kernel.url v))

section Staged

variable (hk : kernel.name ∉ fixedNames) (hc : client.name ∉ fixedNames)

include hk hc

theorem staged_unpacked :
    (staged args r env v kernel client).files unpacked = image args r env v := by
  have hp : unpacked.2 ∈ fixedNames := by decide
  rw [staged, downloadDiskImage_unpacked, downloadAsset_files_fixed hc hp,
    downloadAsset_files_fixed hk hp]
  rfl

theorem staged_files (hp : p.2 ∈ fixedNames) (htmp : p ≠ tmpfile) (hu : p ≠ unpacked) :
    (staged args r env v kernel client).files p = v.files p := by
  rw [staged, downloadDiskImage_files htmp hu, downloadAsset_files_fixed hc hp,
    downloadAsset_files_fixed hk hp]

theorem staged_output {name : String} (hname : name ∈ ["kernel", "client"]) :
    (staged args r env v kernel client).files (args.output, name) =
      v.files (args.output, name) := by
  apply staged_files hk hc
  · exact List.mem_append_left ["disk-image.qcow2", "disk.tmp"] hname
  · intro h
    cases congrArg Prod.snd h
    revert hname
    decide
  · intro h
    cases congrArg Prod.snd h
    revert hname
    decide

theorem staged_disk :
    (staged args r env v kernel client).files (args.output, "disk-image.qcow2") =
        v.files (args.output, "disk-image.qcow2") ↔
      (args.output = .temp → image args r env v = v.files unpacked) := by
  by_cases hout : args.output = .temp
  · simpa [hout, unpacked] using Eq.congr_left (staged_unpacked hk hc)
  · have hu : (args.output, "disk-image.qcow2") ≠ unpacked := fun h => hout (congrArg Prod.fst h)
    have htmp : (args.output, "disk-image.qcow2") ≠ tmpfile := by simp [tmpfile]
    simp [staged_files hk hc (p := (args.output, "disk-image.qcow2")) disk_mem_fixedNames htmp hu,
      hout]

end Staged

theorem downloadDiskImage_files_asset (ha : a.name ∉ fixedNames) :
    (downloadDiskImage env urls v).files (.cwd, a.name) = v.files (.cwd, a.name) := by
  apply downloadDiskImage_files
  · intro h
    have hname : a.name = "disk.tmp" := congrArg Prod.snd h
    simp [hname, fixedNames] at ha
  · intro h
    cases congrArg Prod.fst h

theorem moveAll_cons {src dst : Path} {b : Bytes} (moves : List (Path × Path))
    (h : v.files src = some b) :
    moveAll ((src, dst) :: moves) v =
      moveAll moves { v with files := (v.files.remove src).write dst b } := by
  simp [moveAll, FileSystem.move, h]

theorem moveAll_missing {src dst : Path} (moves : List (Path × Path)) (h : v.files src = none) :
    moveAll ((src, dst) :: moves) v = (v, some (.noSuchFile src)) := by
  simp [moveAll, FileSystem.move, h]

theorem moved_files {fs : FileSystem Path Bytes} {dst : Path} {b : Bytes}
    (ha : a.name ∉ fixedNames) (hp : p.2 ∈ fixedNames) (hne : p ≠ dst) :
    (fs.remove (.cwd, a.name)).write dst b p = fs p := by
  rw [FileSystem.write_of_ne hne, FileSystem.remove_of_ne (ne_of_fixed ha hp)]

theorem staged_client (hc : client.name ∉ fixedNames) :
    (staged args r env v kernel client).files (.cwd, client.name) =
      some (clientBody env v client) := by
  rw [staged, downloadDiskImage_files_asset hc, downloadAsset_files, FileSystem.write_same]
  rfl

theorem staged_kernel (hk : kernel.name ∉ fixedNames) (hne : kernel.name ≠ client.name) :
    (staged args r env v kernel client).files (.cwd, kernel.name) =
      some (kernelBody env v kernel) := by
  have hp : ((Dir.cwd, kernel.name) : Path) ≠ (.cwd, client.name) := by simp [hne]
  rw [staged, downloadDiskImage_files_asset hk, downloadAsset_files, FileSystem.write_of_ne hp,
    downloadAsset_files, FileSystem.write_same]
  rfl

theorem downloadMoveAssets_found (hk : r.assets.find? (·.hasName (kernelName args)) = some kernel)
    (hc : r.assets.find? (·.hasName (clientName args)) = some client) :
    downloadMoveAssets args r env v =
      moveAll [((.cwd, kernel.name), (args.output, "kernel")),
        ((.cwd, client.name), (args.output, "client")),
        (unpacked, (args.output, "disk-image.qcow2"))] (staged args r env v kernel client) := by
  simp [downloadMoveAssets, Release.getUrl, hk, hc, staged]

theorem untouched_iff {v' : World} : Untouched args v v' ↔
    v'.files (args.output, "kernel") = v.files (args.output, "kernel") ∧
      v'.files (args.output, "client") = v.files (args.output, "client") ∧
      v'.files (args.output, "disk-image.qcow2") = v.files (args.output, "disk-image.qcow2") := by
  simp [Untouched]

theorem installed_iff {v' : World} (hk : r.assets.find? (·.hasName (kernelName args)) = some kernel)
    (hc : r.assets.find? (·.hasName (clientName args)) = some client) :
    Installed args r v' ↔ r.getUrls (diskName args) ≠ [] ∧
      v'.files (args.output, "kernel") = some kernel.content ∧
      v'.files (args.output, "client") = some client.content ∧
      v'.files (args.output, "disk-image.qcow2") = some r.image := by
  constructor
  · rintro ⟨k, c, hk', hc', h⟩
    cases hk.symm.trans hk'
    cases hc.symm.trans hc'
    exact h
  · intro h
    exact ⟨kernel, client, hk, hc, h⟩

/-- The condition on the release, the responses and the earlier files under which
nothing goes wrong once both lookups have succeeded. -/
def Consistent (args : Args) (r : Release) (env : Environment) (v : World)
    (kernel client : Asset) : Prop :=
  if kernel.name = client.name then
    v.files (args.output, "kernel") = some (clientBody env v client) ∧
      (args.output = .temp → image args r env v = v.files unpacked)
  else
    match image args r env v with
    | none =>
      v.files (args.output, "kernel") = some (kernelBody env v kernel) ∧
        v.files (args.output, "client") = some (clientBody env v client) ∧
        (args.output = .temp → v.files unpacked = none)
    | some disk =>
      kernelBody env v kernel = kernel.content ∧ clientBody env v client = client.content ∧
        r.getUrls (diskName args) ≠ [] ∧ disk = r.image

section Found

variable (hk : r.assets.find? (·.hasName (kernelName args)) = some kernel)
variable (hc : r.assets.find? (·.hasName (clientName args)) = some client)

include hk hc

theorem allOrNothing_of_same (hname : kernel.name = client.name) :
    AllOrNothing args r env v ↔ v.files (args.output, "kernel") = some (clientBody env v client) ∧
      (args.output = .temp → image args r env v = v.files unpacked) := by
  have hkn := notMem_fixedNames (length_kernelName args) (List.find?_some hk)
  have hcn := notMem_fixedNames (length_clientName args) (List.find?_some hc)
  have hgone := (ne_of_fixed hcn (p := (args.output, "kernel")) kernel_mem_fixedNames).symm
  rw [AllOrNothing, downloadMoveAssets_found hk hc, hname, moveAll_cons _ (staged_client hcn),
    moveAll_missing]
  · simp only [untouched_iff, FileSystem.write_same]
    rw [moved_files hcn client_mem_fixedNames (by simp),
      moved_files hcn disk_mem_fixedNames (by simp), staged_output hkn hcn (by simp),
      staged_disk hkn hcn]
    simp [eq_comm]
  · simp [FileSystem.write_of_ne hgone]

theorem allOrNothing_of_ne (hne : kernel.name ≠ client.name) :
    AllOrNothing args r env v ↔
      match image args r env v with
      | none =>
        v.files (args.output, "kernel") = some (kernelBody env v kernel) ∧
          v.files (args.output, "client") = some (clientBody env v client) ∧
          (args.output = .temp → v.files unpacked = none)
      | some disk =>
        kernelBody env v kernel = kernel.content ∧ clientBody env v client = client.content ∧
          r.getUrls (diskName args) ≠ [] ∧ disk = r.image := by
  have hkn := notMem_fixedNames (length_kernelName args) (List.find?_some hk)
  have hcn := notMem_fixedNames (length_clientName args) (List.find?_some hc)
  have hclient := (ne_of_fixed hcn (p := (args.output, "kernel")) kernel_mem_fixedNames).symm
  have hother : ((Dir.cwd, client.name) : Path) ≠ (.cwd, kernel.name) := by simp [Ne.symm hne]
  rw [AllOrNothing, downloadMoveAssets_found hk hc, moveAll_cons _ (staged_kernel hkn hne),
    moveAll_cons (b := clientBody env v client)]
  · have hu : ((((staged args r env v kernel client).files.remove (.cwd, kernel.name)).write
        (args.output, "kernel") (kernelBody env v kernel)).remove (.cwd, client.name)).write
        (args.output, "client") (clientBody env v client) unpacked = image args r env v := by
      rw [moved_files hcn disk_mem_fixedNames (by simp [unpacked]),
        moved_files hkn disk_mem_fixedNames (by simp [unpacked]), staged_unpacked hkn hcn]
    cases himage : image args r env v with
    | none =>
      rw [moveAll_missing _ (hu.trans himage)]
      simp only [untouched_iff, FileSystem.write_same]
      rw [moved_files hcn kernel_mem_fixedNames (by simp), FileSystem.write_same,
        moved_files hcn disk_mem_fixedNames (by simp),
        moved_files hkn disk_mem_fixedNames (by simp), staged_disk hkn hcn, himage]
      simp [eq_comm]
    | some disk =>
      rw [moveAll_cons _ (hu.trans himage)]
      simp only [moveAll, installed_iff hk hc, FileSystem.write_same]
      rw [FileSystem.write_of_ne (by simp), FileSystem.write_of_ne (by simp),
        FileSystem.remove_of_ne (by simp [unpacked]), FileSystem.remove_of_ne (by simp [unpacked]),
        FileSystem.write_same, moved_files hcn kernel_mem_fixedNames (by simp),
        FileSystem.write_same]
      simp only [Option.some.injEq]
      tauto
  · simp [FileSystem.write_of_ne hclient, FileSystem.remove_of_ne hother, staged_client hcn]

end Found

theorem allOrNothing_iff (args : Args) (r : Release) (env : Environment) (v : World) :
    AllOrNothing args r env v ↔ ∀ kernel client,
      r.assets.find? (·.hasName (kernelName args)) = some kernel →
      r.assets.find? (·.hasName (clientName args)) = some client →
      Consistent args r env v kernel client := by
  cases hk : r.assets.find? (·.hasName (kernelName args)) with
  | none => simp [AllOrNothing, downloadMoveAssets, Release.getUrl, hk, Untouched]
  | some kernel =>
    have hkn := notMem_fixedNames (length_kernelName args) (List.find?_some hk)
    cases hc : r.assets.find? (·.hasName (clientName args)) with
    | none =>
      have huntouched : Untouched args v (downloadAsset env kernel.url v) :=
        .of_files fun p hp => downloadAsset_files_fixed hkn hp
      simpa [AllOrNothing, downloadMoveAssets, Release.getUrl, hk, hc] using huntouched
    | some client =>
      have hiff : AllOrNothing args r env v ↔ Consistent args r env v kernel client := by
        unfold Consistent
        split
        · exact allOrNothing_of_same hk hc ‹_›
        · exact allOrNothing_of_ne hk hc ‹_›
      rw [hiff]
      constructor
      · rintro h _ _ ⟨⟩ ⟨⟩
        exact h
      · intro h
        exact h kernel client rfl rfl

def diskless : Release where
  assets :=
    [{ name := "vmlinux-focal-amd64", base := "releases/download/v1", content := [1],
       plain := by decide },
     { name := "test-client-amd64", base := "releases/download/v1", content := [2],
       plain := by decide }]
  image := [3]

def complete : Environment where
  get _ url := ⟨1, if url = "releases/download/v1/vmlinux-focal-amd64" then [1] else [2]⟩
  extract _ old := old

def leftover : World where
  files p := if p = unpacked then some [9] else none

theorem not_allOrNothing_diskless : ¬AllOrNothing {} diskless complete leftover := by
  have hdone : (downloadMoveAssets {} diskless complete leftover).2 = none := by decide
  have hparts : diskless.getUrls (diskName {}) = [] := by decide
  intro h
  unfold AllOrNothing at h
  split at h
  · obtain ⟨_, _, _, _, hne, _⟩ := h
    exact hne hparts
  · simp_all

end VSwarm.Resources
