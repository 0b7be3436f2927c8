import Mathlib
import VSwarm.Defs.Resources.GetRelease

namespace VSwarm.Resources.Versions

open VSwarm.Lib

structure TaggedRelease where
  tagName : String
  release : Release

structure Site where
  latest : Option TaggedRelease
  releases : List TaggedRelease

inductive Ending
  | finished
  | raised (e : Exc)
  | keyError (key : String)
  | exited (status : Nat)
  deriving DecidableEq

/-- An answer that is no release has no tag either. -/
def getLatestRelease (site : Site) : Except Ending TaggedRelease :=
  site.latest.elim (.error (.keyError "tag_name")) .ok

def getRelease (site : Site) (tagName : String) : Except Ending TaggedRelease :=
  if tagName = "latest" then getLatestRelease site
  else (site.releases.find? fun r => r.tagName = tagName).elim (.error (.exited 1)) .ok

def main (args : Args) (version : String) (site : Site) (env : Environment) (v : World) :
    World × Ending :=
  match if version = "latest" then getLatestRelease site else getRelease site version with
  | .error ending => (v, ending)
  | .ok r =>
    match downloadMoveAssets args r.release env v with
    | (v, none) => (v, .finished)
    | (v, some e) => (v, .raised e)

section Lookup

variable {args : Args} {name : AssetName}

theorem getRelease_of_latest (site : Site) (version : String) :
    (if version = "latest" then getLatestRelease site else getRelease site version) =
      getRelease site version := by
  rw [getRelease]
  split <;> rfl

/-- A name that has a dash and no dot stands in the name of a part before the suffix,
or not at all. -/
theorem not_infix_part {text : List Char} {c : Char} (hdash : '-' ∈ text) (hdot : '.' ∉ text)
    (hc : c ∈ text) {os : Os} {arch : Arch} (s : Suffix)
    (hdisk : c ∉ (diskName ⟨os, arch, .other⟩ ++ ".tar.gz").toList) :
    ¬text <:+: (AssetName.part os arch s).text.toList := by
  have hsplit : (AssetName.part os arch s).text.toList =
      (diskName ⟨os, arch, .other⟩ ++ ".tar.gz").toList ++ '.' :: s.text := by
    simp [AssetName.text]
  rw [hsplit, Text.infix_append_cons hdot, not_or]
  exact ⟨Text.not_infix_of_notMem hc hdisk,
    Text.not_infix_of_notMem hdash (lower_text s (by decide))⟩

theorem eq_kernel_of_infix (h : (kernelName args).toList <:+: name.text.toList) :
    name = .kernel args.osVersion args.arch := by
  have hdash : '-' ∈ (kernelName args).toList ∧ '.' ∉ (kernelName args).toList ∧
      'v' ∈ (kernelName args).toList := by
    unfold kernelName
    cases args.osVersion <;> cases args.arch <;> decide
  cases name with
  | part os arch s =>
    refine absurd h (not_infix_part hdash.1 hdash.2.1 hdash.2.2 s ?_)
    cases os <;> cases arch <;> decide
  | sums os arch =>
    refine absurd h (Text.not_infix_of_notMem hdash.2.2 ?_)
    cases os <;> cases arch <;> decide
  | kernel os arch =>
    have hsame : os = args.osVersion ∧ arch = args.arch := by
      change (kernelName ⟨args.osVersion, args.arch, .other⟩).toList <:+: _ at h
      revert h
      cases os <;> cases arch <;> cases args.osVersion <;> cases args.arch <;> decide
    rw [hsame.1, hsame.2]
  | client arch =>
    refine absurd h (Text.not_infix_of_notMem hdash.2.2 ?_)
    cases arch <;> decide

theorem eq_client_of_infix (h : (clientName args).toList <:+: name.text.toList) :
    name = .client args.arch := by
  have hdash : '-' ∈ (clientName args).toList ∧ '.' ∉ (clientName args).toList ∧
      'n' ∈ (clientName args).toList ∧ 't' ∈ (clientName args).toList := by
    unfold clientName
    cases args.arch <;> decide
  cases name with
  | part os arch s =>
    refine absurd h (not_infix_part hdash.1 hdash.2.1 hdash.2.2.1 s ?_)
    cases os <;> cases arch <;> decide
  | sums os arch =>
    refine absurd h (Text.not_infix_of_notMem hdash.2.2.1 ?_)
    cases os <;> cases arch <;> decide
  | kernel os arch =>
    refine absurd h (Text.not_infix_of_notMem hdash.2.2.2 ?_)
    cases os <;> cases arch <;> decide
  | client arch =>
    have hsame : arch = args.arch := by
      change (clientName ⟨.focal, args.arch, .other⟩).toList <:+: _ at h
      revert h
      cases arch <;> cases args.arch <;> decide
    rw [hsame]

theorem find?_asset (text : String) {listed : List AssetName} (hmem : name ∈ listed)
    (hname : text.toList <:+: name.text.toList)
    (hother : ∀ n : AssetName, text.toList <:+: n.text.toList → n = name) (base : String)
    (content : String → Bytes) :
    (listed.map (AssetName.asset base content)).find? (·.hasName text) =
      some (name.asset base content) := by
  induction listed with
  | nil => cases hmem
  | cons n listed ih =>
    rw [List.map_cons, List.find?_cons]
    by_cases hn : text.toList <:+: n.text.toList
    · have hfits : (n.asset base content).hasName text = true := decide_eq_true hn
      rw [hfits, hother n hn]
    · have hfits : (n.asset base content).hasName text = false := decide_eq_false hn
      rw [hfits]
      refine ih ((List.mem_cons.mp hmem).resolve_left ?_)
      intro heq
      exact hn (heq ▸ hname)

end Lookup

section Installation

variable {args : Args} {r : Release} {env : Environment} {v : World} {kernel client : Asset}

theorem downloadMoveAssets_image {disk : Bytes}
    (hk : r.assets.find? (·.hasName (kernelName args)) = some kernel)
    (hc : r.assets.find? (·.hasName (clientName args)) = some client)
    (hne : kernel.name ≠ client.name) (himage : image args r env v = some disk) :
    ∃ v', downloadMoveAssets args r env v = (v', none) ∧
      v'.files (args.output, "kernel") = some (kernelBody env v kernel) ∧
      v'.files (args.output, "client") = some (clientBody env v client) ∧
      v'.files (args.output, "disk-image.qcow2") = some disk := by
  have hkn := notMem_fixedNames (length_kernelName args) (List.find?_some hk)
  have hcn := notMem_fixedNames (length_clientName args) (List.find?_some hc)
  have hclient := (ne_of_fixed hcn (p := (args.output, "kernel")) kernel_mem_fixedNames).symm
  have hother : ((Dir.cwd, client.name) : Path) ≠ (.cwd, kernel.name) := by simp [Ne.symm hne]
  have hdisk : ((((staged args r env v kernel client).files.remove (.cwd, kernel.name)).write
      (args.output, "kernel") (kernelBody env v kernel)).remove (.cwd, client.name)).write
      (args.output, "client") (clientBody env v client) unpacked = some disk := by
    rw [moved_files hcn disk_mem_fixedNames (by simp [unpacked]),
      moved_files hkn disk_mem_fixedNames (by simp [unpacked]), staged_unpacked hkn hcn, himage]
  rw [downloadMoveAssets_found hk hc, moveAll_cons _ (staged_kernel hkn hne),
    moveAll_cons (b := clientBody env v client), moveAll_cons _ hdisk]
  · refine ⟨_, rfl, ?_, ?_, FileSystem.write_same ..⟩
    · dsimp only
      rw [FileSystem.write_of_ne (by simp), FileSystem.remove_of_ne (by simp [unpacked]),
        moved_files hcn kernel_mem_fixedNames (by simp), FileSystem.write_same]
    · dsimp only
      rw [FileSystem.write_of_ne (by simp), FileSystem.remove_of_ne (by simp [unpacked]),
        FileSystem.write_same]
  · dsimp only
    rw [FileSystem.write_of_ne hclient, FileSystem.remove_of_ne hother, staged_client hcn]

theorem image_published {p : Published args} {base : String} {content : String → Bytes}
    {disk : Bytes} (horder : p.listed.filterMap (AssetName.suffix? args) = p.suffixes)
    (hvisible : ∀ s ∈ p.suffixes, s.hidden = false)
    (hserves : Serves env (p.listed.map (AssetName.asset base content)))
    (hextract : env.extract (p.suffixes.flatMap fun s => content (partText args s))
      (v.files unpacked) = some disk) :
    image args ⟨p.listed.map (AssetName.asset base content), disk⟩ env v = some disk := by
  have hparts : ∀ i, ∀ a ∈ (p.listed.map (AssetName.asset base content)).filter
      (fun a => !a.hasName "sums" && a.hasName (diskName args)),
      (env.get i a.url).body = a.content := by
    intro i a ha
    exact hserves i a (List.mem_of_mem_filter ha)
  have hchosen : p.chosen = p.suffixes := (chosen_eq_iff p).mpr ⟨horder, hvisible⟩
  rw [image, Release.getUrls, received_of_serves hparts, filter_assets, List.flatMap_map,
    ← hextract, ← hchosen]
  rfl

theorem main_installs (p : Published args) {version base : String} {content : String → Bytes}
    {site : Site} {tag : String} {disk : Bytes}
    (hsite : getRelease site version =
      .ok ⟨tag, ⟨p.listed.map (AssetName.asset base content), disk⟩⟩)
    (hkernel : .kernel args.osVersion args.arch ∈ p.others) (hclient : .client args.arch ∈ p.others)
    (horder : p.listed.filterMap (AssetName.suffix? args) = p.suffixes)
    (hvisible : ∀ s ∈ p.suffixes, s.hidden = false)
    (hserves : Serves env (p.listed.map (AssetName.asset base content)))
    (hextract : env.extract (p.suffixes.flatMap fun s => content (partText args s))
      (v.files unpacked) = some disk) :
    ∃ v', main args version site env v = (v', .finished) ∧
      v'.files (args.output, "kernel") = some (content (kernelName args)) ∧
      v'.files (args.output, "client") = some (content (clientName args)) ∧
      v'.files (args.output, "disk-image.qcow2") = some disk := by
  have hlisted : ∀ n ∈ p.others, n ∈ p.listed := by
    intro n hn
    exact p.perm.mem_iff.mpr (List.mem_append_right _ hn)
  have hk := find?_asset (kernelName args) (hlisted _ hkernel) (List.infix_refl _)
    (fun _ => eq_kernel_of_infix) base content
  have hc := find?_asset (clientName args) (hlisted _ hclient) (List.infix_refl _)
    (fun _ => eq_client_of_infix) base content
  have hne : kernelName args ≠ clientName args := by
    unfold kernelName clientName
    cases args.osVersion <;> cases args.arch <;> decide
  obtain ⟨v', hrun, hk', hc', hd'⟩ := downloadMoveAssets_image
    (r := ⟨p.listed.map (AssetName.asset base content), disk⟩) hk hc hne
    (image_published horder hvisible hserves hextract)
  refine ⟨v', ?_, ?_, ?_, hd'⟩
  · rw [main, getRelease_of_latest, hsite]
    simp only [hrun]
  · rw [hk']
    exact congrArg some (hserves _ _ (List.mem_of_find?_eq_some hk))
  · rw [hc']
    exact congrArg some (hserves _ _ (List.mem_of_find?_eq_some hc))

def focalAmd64 : Published {} where
  suffixes := [.aa, .ab]
  increasing := increasing_aa_ab
  others := [.kernel .focal .amd64, .client .amd64, .part .jammy .amd64 .aa]
  foreign := by simp [AssetName.suffix?]
  listed := [.kernel .focal .amd64, .client .amd64, .part .jammy .amd64 .aa] ++
    [Suffix.aa, .ab].map (.part .focal .amd64)
  perm := List.perm_append_comm

def nameBytes (name : String) : Bytes := [name.length.toUInt8]

def joinEnvironment : Environment := { server nameBytes with extract := fun b _ => some b }

def focalSite : Site where
  latest := none
  releases := [⟨"v1", ⟨[], []⟩⟩,
    ⟨"v2", ⟨focalAmd64.listed.map (AssetName.asset "" nameBytes),
      focalAmd64.suffixes.flatMap fun s => nameBytes (partText {} s)⟩⟩]

theorem main_installs_focal :
    ∃ v', main {} "v2" focalSite joinEnvironment ⟨fun _ => none, 0, []⟩ = (v', .finished) ∧
      v'.files (.other, "kernel") = some (nameBytes (kernelName {})) ∧
      v'.files (.other, "client") = some (nameBytes (clientName {})) ∧
      v'.files (.other, "disk-image.qcow2") =
        some (focalAmd64.suffixes.flatMap fun s => nameBytes (partText {} s)) := by
  apply @main_installs {} joinEnvironment _ focalAmd64 "v2" "" nameBytes focalSite "v2"
  · simp [getRelease, focalSite]
  · simp [focalAmd64]
  · simp [focalAmd64]
  · rfl
  · decide
  · exact server_serves "" nameBytes _
  · rfl

end Installation

section Unfit

variable {args : Args} {name : String}

def IsUploaded (name : String) : Prop :=
  ∃ a releases w, name ∈ (UploadAssets.main a releases w).requests.map UploadAssets.Request.name

theorem mem_requests_main {a : UploadAssets.Args} {releases : List UploadAssets.Release}
    {w : UploadAssets.Setting} {p : UploadAssets.Request}
    (h : p ∈ (UploadAssets.main a releases w).requests) :
    ∃ url, p ∈ [UploadAssets.uploadAsset url a.kernel "vmlinux-amd64",
        UploadAssets.uploadAsset url a.client "client-amd64"] ∨
      ∃ listing, p ∈ UploadAssets.diskRequests url listing := by
  cases hrelease : UploadAssets.getRelease releases a with
  | error status => simp [UploadAssets.main, hrelease] at h
  | ok r =>
    simp only [UploadAssets.main, hrelease] at h
    refine ⟨UploadAssets.getUploadurl r, ?_⟩
    split at h
    · rename_i listing _ _
      have hall : p ∈ (UploadAssets.uploadAll w.answer 0
            [UploadAssets.uploadAsset (UploadAssets.getUploadurl r) a.kernel "vmlinux-amd64",
              UploadAssets.uploadAsset (UploadAssets.getUploadurl r) a.client "client-amd64"]).1 ∨
          p ∈ (UploadAssets.uploadAll w.answer 2
            (UploadAssets.diskRequests (UploadAssets.getUploadurl r) listing)).1 := by
        split at h <;> exact List.mem_append.mp h
      cases hall with
      | inl h => exact .inl (UploadAssets.uploadAll_subset _ _ _ h)
      | inr h => exact .inr ⟨listing, UploadAssets.uploadAll_subset _ _ _ h⟩
    · exact .inl (UploadAssets.uploadAll_subset _ _ _ h)

theorem name_of_isUploaded (h : IsUploaded name) :
    name ∈ ["vmlinux-amd64", "client-amd64"] ∨ ∃ i, name = indexedName i := by
  obtain ⟨a, releases, w, h⟩ := h
  obtain ⟨p, hp, rfl⟩ := List.mem_map.mp h
  obtain ⟨url, hp | ⟨listing, hp⟩⟩ := mem_requests_main hp
  · left
    cases List.mem_pair.mp hp with
    | inl hp => exact hp ▸ List.mem_cons_self
    | inr hp => exact hp ▸ List.mem_cons_of_mem _ List.mem_cons_self
  · right
    obtain ⟨asset, hasset, rfl⟩ := List.mem_map.mp hp
    obtain ⟨file, -, rfl⟩ := List.mem_map.mp hasset
    refine ⟨file.2, ?_⟩
    have hne : indexedName file.2 ≠ "" := by simp [indexedName]
    rw [UploadAssets.uploadAsset, if_pos hne]

theorem not_infix_of_isUploaded (h : IsUploaded name) :
    ¬(kernelName args).toList <:+: name.toList := by
  intro hinfix
  have hlength := (length_kernelName args).trans hinfix.length_le
  have hv : 'v' ∈ (kernelName args).toList := by
    unfold kernelName
    simp
  cases name_of_isUploaded h with
  | inl h =>
    have hshort : ∀ n ∈ ["vmlinux-amd64", "client-amd64"], n.toList.length < 17 := by decide
    exact absurd hlength (Nat.not_le.mpr (hshort name h))
  | inr h =>
    obtain ⟨i, rfl⟩ := h
    refine Text.not_infix_of_notMem hv ?_ hinfix
    rw [indexedName, String.toList_append, List.mem_append, not_or]
    exact ⟨by decide, Text.notMem_toString_nat (by decide) i⟩

theorem getRelease_error {site : Site} {version : String} {ending : Ending}
    (h : getRelease site version = .error ending) : ending ≠ .finished := by
  rw [getRelease, getLatestRelease] at h
  split at h
  · cases hlatest : site.latest <;> simp [hlatest] at h
    exact h ▸ Ending.noConfusion
  · cases hfound : site.releases.find? fun r => r.tagName = version <;> simp [hfound] at h
    exact h ▸ Ending.noConfusion

theorem getRelease_ok {site : Site} {version : String} {r : TaggedRelease}
    (h : getRelease site version = .ok r) : site.latest = some r ∨ r ∈ site.releases := by
  rw [getRelease, getLatestRelease] at h
  split at h
  · left
    cases hlatest : site.latest <;> simp [hlatest] at h
    rw [h]
  · right
    cases hfound : site.releases.find? fun r => r.tagName = version <;> simp [hfound] at h
    exact h ▸ List.mem_of_find?_eq_some hfound

theorem main_refuses (version : String) (site : Site) (env : Environment) (v : World)
    (h : ∀ r : TaggedRelease, site.latest = some r ∨ r ∈ site.releases →
      ∀ a ∈ r.release.assets, IsUploaded a.name) :
    (main args version site env v).1 = v ∧ (main args version site env v).2 ≠ .finished := by
  rw [main, getRelease_of_latest]
  cases hfound : getRelease site version with
  | error ending => exact ⟨rfl, getRelease_error hfound⟩
  | ok r =>
    have hkernel : r.release.getUrl (kernelName args) = none := by
      rw [Release.getUrl, Option.map_eq_none_iff, List.find?_eq_none]
      intro a ha hfits
      exact not_infix_of_isUploaded (h r (getRelease_ok hfound) a ha) (of_decide_eq_true hfits)
    simp [downloadMoveAssets, hkernel]

def kernelAsset : Asset := ⟨"vmlinux-amd64", "", [1], by decide⟩

theorem isUploaded_kernelAsset : IsUploaded kernelAsset.name := by
  refine ⟨⟨"kernel".toList, "client".toList, "v1", ""⟩, [⟨1, "v1", []⟩],
    ⟨fun i => if i = 0 then .returned .created else .raised false, none, []⟩, ?_⟩
  decide

theorem main_refuses_latest :
    (main {} "latest" ⟨some ⟨"v1", ⟨[kernelAsset], []⟩⟩, []⟩ joinEnvironment
        ⟨fun _ => some [], 0, []⟩).2 ≠ .finished := by
  refine (main_refuses "latest" _ _ _ ?_).2
  intro r hr a ha
  cases hr with
  | inl hr =>
    cases hr
    rw [List.mem_singleton.mp ha]
    exact isUploaded_kernelAsset
  | inr hr => cases hr

end Unfit

end VSwarm.Resources.Versions
