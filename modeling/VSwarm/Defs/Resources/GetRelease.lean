import Mathlib.Data.List.Nodup
import VSwarm.Defs.Resources.UploadAssets

namespace VSwarm.Resources.UploadAssets

open VSwarm.Lib

structure Release where
  id : Nat
  tagName : String
  uploadUrl : List Char
  deriving DecidableEq

structure Args where
  kernel : List Char
  client : List Char
  tagName : String := ""
  releaseId : String := ""

/-- The condition in the loop of `get_release`: an id counts as true unless it is
zero. -/
def isTarget (args : Args) (r : Release) : Bool :=
  args.releaseId != "" && r.id != 0 || args.tagName != "" && r.tagName == args.tagName

def getRelease (releases : List Release) (args : Args) : Except Nat Release :=
  match releases.findIdx? (isTarget args) with
  | none => .error 1
  | some i => (releases[i]?).elim (.error 1) .ok

def urlTemplate : List Char := "\x7b?name,label\x7d".toList

def getUploadurl (r : Release) : List Char := Text.erase urlTemplate r.uploadUrl

structure Request where
  url : List Char
  name : String
  path : List Char
  deriving DecidableEq

def uploadAsset (url path : List Char) (name : String) : Request :=
  ⟨url, if name ≠ "" then name else String.ofList path, path⟩

inductive Answer
  | returned (p : Posted)
  | raised (sent : Bool)

def uploadAll (answer : Nat → Answer) : Nat → List Request → List Request × Bool
  | _, [] => ([], true)
  | i, r :: rs =>
    match answer i with
    | .returned _ => (r :: (uploadAll answer (i + 1) rs).1, (uploadAll answer (i + 1) rs).2)
    | .raised sent => (if sent then [r] else [], false)

def diskRequests (url : List Char) (listing : List Listing.FileName) : List Request :=
  (numbered 0 (listing.filter (Text.contains diskPrefix))).map fun asset =>
    uploadAsset url ("./".toList ++ asset.2) asset.1

/-- What the script meets: the answers to its uploads, the listing after the disk
image has been split, unless that raises, and the releases that it is told of at
its end. -/
structure Setting where
  answer : Nat → Answer
  listing : Option (List Listing.FileName)
  later : List Release

structure Run where
  requests : List Request
  status : Nat

def main (args : Args) (releases : List Release) (w : Setting) : Run :=
  match getRelease releases args with
  | .error status => ⟨[], status⟩
  | .ok release =>
    let url := getUploadurl release
    let files := uploadAll w.answer 0
      [uploadAsset url args.kernel "vmlinux-amd64", uploadAsset url args.client "client-amd64"]
    match files.2, w.listing with
    | true, some listing =>
      let parts := uploadAll w.answer 2 (diskRequests url listing)
      match parts.2, getRelease w.later args with
      | true, .ok _ => ⟨files.1 ++ parts.1, 0⟩
      | _, _ => ⟨files.1 ++ parts.1, 1⟩
    | _, _ => ⟨files.1, 1⟩

structure Releases where
  list : List Release
  ids : (list.map Release.id).Nodup
  tags : (list.map Release.tagName).Nodup

def HasId (args : Args) (r : Release) : Prop := args.releaseId ≠ "" ∧ toString r.id = args.releaseId

def HasTag (args : Args) (r : Release) : Prop := args.tagName ≠ "" ∧ r.tagName = args.tagName

instance (args : Args) (r : Release) : Decidable (HasTag args r) :=
  inferInstanceAs (Decidable (_ ∧ _))

def Releases.Requested (v : Releases) (args : Args) (r : Release) : Prop :=
  r ∈ v.list ∧ (HasId args r ∨ (∀ r' ∈ v.list, ¬HasId args r') ∧ HasTag args r)

structure Releases.Selects (v : Releases) (args : Args) : Prop where
  found : ∀ r, v.Requested args r → getRelease v.list args = .ok r
  missing : (∀ r, ¬v.Requested args r) → getRelease v.list args = .error 1
  requests : ∀ r, v.Requested args r →
    ∀ w, ∀ p ∈ (main args v.list w).requests, p.url = getUploadurl r

section Laws

variable {args : Args} {releases : List Release} {r : Release}

theorem getRelease_eq : getRelease releases args =
    (releases.find? (isTarget args)).elim (.error 1) .ok := by
  induction releases with
  | nil => rfl
  | cons r releases ih =>
    rw [getRelease, List.findIdx?_cons, List.find?_cons]
    cases isTarget args r with
    | true => rfl
    | false =>
      rw [← ih, getRelease]
      cases releases.findIdx? (isTarget args) <;> rfl

theorem getRelease_eq_ok : getRelease releases args = .ok r ↔
    releases.find? (isTarget args) = some r := by
  rw [getRelease_eq]
  cases releases.find? (isTarget args) <;> simp

theorem getRelease_eq_error : getRelease releases args = .error 1 ↔
    releases.find? (isTarget args) = none := by
  rw [getRelease_eq]
  cases releases.find? (isTarget args) <;> simp

theorem getUploadurl_eq {base : List Char} (hbase : '\x7b' ∉ base)
    (h : r.uploadUrl = base ++ urlTemplate) : getUploadurl r = base := by
  rw [getUploadurl, h]
  exact Text.erase_append_self hbase

theorem uploadAll_subset (answer : Nat → Answer) (i : Nat) (rs : List Request) :
    (uploadAll answer i rs).1 ⊆ rs := by
  induction rs generalizing i with
  | nil => exact List.Subset.refl []
  | cons r rs ih =>
    rw [uploadAll]
    cases answer i with
    | returned p => exact List.cons_subset_cons r (ih (i + 1))
    | raised sent => cases sent <;> simp

theorem url_diskRequests {url : List Char} {listing : List Listing.FileName} {p : Request}
    (h : p ∈ diskRequests url listing) : p.url = url := by
  obtain ⟨asset, -, rfl⟩ := List.mem_map.mp h
  rfl

theorem url_requests_main (h : getRelease releases args = .ok r) (w : Setting) :
    ∀ p ∈ (main args releases w).requests, p.url = getUploadurl r := by
  have hfiles : ∀ p ∈ (uploadAll w.answer 0
      [uploadAsset (getUploadurl r) args.kernel "vmlinux-amd64",
        uploadAsset (getUploadurl r) args.client "client-amd64"]).1, p.url = getUploadurl r := by
    intro p hp
    rcases List.mem_pair.mp (uploadAll_subset _ _ _ hp) with rfl | rfl <;> rfl
  have hparts : ∀ listing, ∀ p ∈ (uploadAll w.answer 2 (diskRequests (getUploadurl r) listing)).1,
      p.url = getUploadurl r := by
    intro listing p hp
    exact url_diskRequests (uploadAll_subset _ _ _ hp)
  intro p hp
  simp only [main, h] at hp
  split at hp
  · split at hp <;>
    · rcases List.mem_append.mp hp with hp | hp
      · exact hfiles p hp
      · exact hparts _ p hp
  · exact hfiles p hp

end Laws

section Selection

variable (v : Releases) (args : Args)

theorem Releases.selects_iff_find : v.Selects args ↔
    ∀ r, v.Requested args r ↔ v.list.find? (isTarget args) = some r := by
  constructor
  · intro h r
    refine ⟨fun hr => getRelease_eq_ok.mp (h.found r hr), fun hr => ?_⟩
    -- whatever is requested is found, so what is found is requested
    by_contra hnot
    by_cases hall : ∀ r', ¬v.Requested args r'
    · rw [getRelease_eq_error.mp (h.missing hall)] at hr
      cases hr
    · obtain ⟨r', hr'⟩ := not_forall_not.mp hall
      rw [getRelease_eq_ok.mp (h.found r' hr')] at hr
      exact hnot (Option.some.inj hr ▸ hr')
  · intro h
    refine ⟨fun r hr => getRelease_eq_ok.mpr ((h r).mp hr), fun hnone => ?_, fun r hr => ?_⟩
    · apply getRelease_eq_error.mpr
      apply Option.eq_none_iff_forall_ne_some.mpr
      intro r hr
      exact hnone r ((h r).mpr hr)
    · exact url_requests_main (getRelease_eq_ok.mpr ((h r).mp hr))

variable {v args}

theorem isTarget_of_eq (h : args.releaseId = "") (r : Release) :
    isTarget args r = decide (HasTag args r) := by
  rw [Bool.eq_iff_iff, decide_eq_true_iff]
  simp [isTarget, HasTag, h]

theorem isTarget_of_ne (h : args.releaseId ≠ "") (r : Release) :
    isTarget args r = decide (r.id ≠ 0 ∨ HasTag args r) := by
  rw [Bool.eq_iff_iff, decide_eq_true_iff]
  simp [isTarget, HasTag, h]

theorem find?_hasTag (r : Release) :
    v.list.find? (fun r => decide (HasTag args r)) = some r ↔ r ∈ v.list ∧ HasTag args r := by
  constructor
  · intro h
    exact ⟨List.mem_of_find?_eq_some h, by simpa using List.find?_some h⟩
  · rintro ⟨hr, htag⟩
    cases h : v.list.find? (fun r => decide (HasTag args r)) with
    | none => exact absurd (decide_eq_true htag) (List.find?_eq_none.mp h r hr)
    | some r' =>
      have htag' : HasTag args r' := by simpa using List.find?_some h
      have hr' := List.mem_of_find?_eq_some h
      rw [List.inj_on_of_nodup_map v.tags hr' hr (htag'.2.trans htag.2.symm)]

theorem Releases.requested_of_eq (h : args.releaseId = "") (r : Release) :
    v.Requested args r ↔ r ∈ v.list ∧ HasTag args r := by
  have hid : ∀ r, ¬HasId args r := fun r hr => hr.1 h
  simp [Requested, hid]

theorem Releases.selects_iff : v.Selects args ↔ args.releaseId = "" ∨
    ∀ r, v.Requested args r ↔
      (v.list.filter fun r => r.id ≠ 0 ∨ HasTag args r).head? = some r := by
  rw [selects_iff_find]
  by_cases h : args.releaseId = ""
  · refine iff_of_true (fun r => ?_) (.inl h)
    rw [requested_of_eq h, ← find?_hasTag, funext (isTarget_of_eq h)]
  · rw [or_iff_right h, funext (isTarget_of_ne h)]
    simp only [List.head?_filter]

def twoReleases : Releases where
  list := [⟨2, "v2", "https://uploads.github.com/releases/2/assets\x7b?name,label\x7d".toList⟩,
    ⟨1, "v1", "https://uploads.github.com/releases/1/assets\x7b?name,label\x7d".toList⟩]
  ids := by decide
  tags := by decide

theorem not_selects_twoReleases : ¬twoReleases.Selects
    { kernel := "kernel".toList, client := "client".toList, releaseId := "1" } := by
  intro h
  have hfound := h.found _ ⟨List.mem_cons_of_mem _ List.mem_cons_self, .inl ⟨by decide, by decide⟩⟩
  revert hfound
  decide

end Selection

end VSwarm.Resources.UploadAssets
