import VSwarm.Defs.Resources.Reassembly

namespace VSwarm.Resources

open VSwarm.Lib

inductive Posted | created | refused | retryError
  deriving DecidableEq

/-- The result of `upload_asset`, as a condition: `500` counts as success. -/
def Posted.succeeds : Posted → Bool
  | .created => true
  | .refused => false
  | .retryError => true

structure Uploads where
  assets : List (String × Listing.FileName) := []
  failed : Bool := false

def indexedName (i : Nat) : String := "disk-image-" ++ toString i

def uploadFrom (post : Nat → Posted) : Nat → List Listing.FileName → Uploads → Uploads
  | _, [], u => u
  | i, file :: files, u =>
    let assets := if post i = .created then u.assets ++ [(indexedName i, file)] else u.assets
    uploadFrom post (i + 1) files ⟨assets, u.failed || !(post i).succeeds⟩

def uploadDisk (post : Nat → Posted) (pre : List Char) (listing : List Listing.FileName) :
    Uploads :=
  uploadFrom post 0 (listing.filter (Text.contains pre)) {}

def Uploads.joined (u : Uploads) (content : Listing.FileName → Bytes) : Bytes :=
  (List.range u.assets.length).flatMap fun i => ((u.assets.lookup (indexedName i)).elim [] content)

def diskPrefix : List Char := "disk-image-amd64-".toList

/-- A directory after `split`: the parts in the order in which they were cut, the
other files, and the order in which `os.listdir` returns all of them. -/
structure SplitDir where
  suffixes : List Suffix
  increasing : suffixes.Pairwise (·.text < ·.text)
  others : List Listing.FileName
  foreign : ∀ file ∈ others, ∀ s ∈ suffixes, file ≠ diskPrefix ++ s.text
  listing : List Listing.FileName
  perm : listing.Perm (suffixes.map (fun s => diskPrefix ++ s.text) ++ others)

def SplitDir.parts (d : SplitDir) : List Listing.FileName :=
  d.suffixes.map fun s => diskPrefix ++ s.text

/-- When all uploads succeed, the assets in the order of their numbers are the
archive, and they are made from its parts and from no other file. -/
def SplitDir.KeepsOrder (d : SplitDir) : Prop :=
  ∀ content, (uploadDisk (fun _ => .created) diskPrefix d.listing).joined content =
      d.parts.flatMap content ∧
    ((uploadDisk (fun _ => .created) diskPrefix d.listing).assets.map Prod.snd).Perm d.parts

section Laws

variable {files : List Listing.FileName} {u : Uploads}

theorem indexedName_injective : Function.Injective indexedName := by
  intro i j h
  exact Text.toString_nat_injective ((String.append_right_inj _).mp h)

def numbered (i : Nat) (files : List Listing.FileName) : List (String × Listing.FileName) :=
  (files.zipIdx i).map fun file => (indexedName file.2, file.1)

theorem uploadFrom_created (i : Nat) :
    uploadFrom (fun _ => .created) i files u = ⟨u.assets ++ numbered i files, u.failed⟩ := by
  induction files generalizing i u with
  | nil => simp [uploadFrom, numbered]
  | cons file files ih => simp [uploadFrom, numbered, ih, Posted.succeeds, List.zipIdx_cons]

theorem lookup_numbered (k i : Nat) :
    (numbered k files).lookup (indexedName (k + i)) = files[i]? := by
  induction files generalizing k i with
  | nil => rfl
  | cons file files ih =>
    rw [numbered, List.zipIdx_cons, List.map_cons, ← numbered]
    cases i with
    | zero => simp
    | succ i =>
      have hne : (indexedName (k + (i + 1)) == indexedName k) = false := by
        rw [beq_eq_false_iff_ne, indexedName_injective.ne_iff]
        omega
      have hshift : k + (i + 1) = k + 1 + i := by omega
      rw [List.lookup_cons, hne, hshift, ih (k + 1) i]
      rfl

theorem range_flatMap (content : Listing.FileName → Bytes) :
    ((List.range files.length).flatMap fun i => files[i]?.elim [] content) =
      files.flatMap content := by
  induction files with
  | nil => rfl
  | cons file files ih =>
    rw [List.length_cons, List.range_succ_eq_map, List.flatMap_cons, List.flatMap_map,
      List.flatMap_cons, ← ih]
    rfl

theorem joined_uploadDisk (pre : List Char) (listing : List Listing.FileName)
    (content : Listing.FileName → Bytes) :
    (uploadDisk (fun _ => .created) pre listing).joined content =
      (listing.filter (Text.contains pre)).flatMap content := by
  have hlookup : ∀ i, (numbered 0 (listing.filter (Text.contains pre))).lookup (indexedName i) =
      (listing.filter (Text.contains pre))[i]? := by
    intro i
    have hi := @lookup_numbered (listing.filter (Text.contains pre)) 0 i
    rwa [Nat.zero_add] at hi
  have hlength : (numbered 0 (listing.filter (Text.contains pre))).length =
      (listing.filter (Text.contains pre)).length := by
    simp [numbered]
  rw [uploadDisk, uploadFrom_created, Uploads.joined, List.nil_append, hlength]
  simp only [hlookup]
  exact range_flatMap content

theorem sources_uploadDisk (pre : List Char) (listing : List Listing.FileName) :
    (uploadDisk (fun _ => .created) pre listing).assets.map Prod.snd =
      listing.filter (Text.contains pre) := by
  rw [uploadDisk, uploadFrom_created, List.nil_append, numbered, List.map_map]
  exact List.zipIdx_map_fst 0 _

end Laws

section Order

variable (d : SplitDir)

theorem SplitDir.keepsOrder_iff_filter :
    d.KeepsOrder ↔ d.listing.filter (Text.contains diskPrefix) = d.parts := by
  constructor
  · intro h
    refine (Listing.flatMap_inj (x := (0 : UInt8)) (y := 1) (by decide)).mp fun content => ?_
    rw [← joined_uploadDisk, (h content).1]
  · intro h content
    rw [joined_uploadDisk, sources_uploadDisk, h]
    exact ⟨rfl, .refl _⟩

theorem SplitDir.contains_parts {file : Listing.FileName} (h : file ∈ d.parts) :
    Text.contains diskPrefix file = true := by
  obtain ⟨s, -, rfl⟩ := List.mem_map.mp h
  exact decide_eq_true (List.prefix_append diskPrefix s.text).isInfix

theorem SplitDir.filter_listing (h : ∀ file ∈ d.others, ¬diskPrefix <:+: file) :
    d.listing.filter (Text.contains diskPrefix) = d.listing.filter (· ∈ d.parts) := by
  refine List.filter_congr fun file hfile => ?_
  rcases List.mem_append.mp (d.perm.subset hfile) with hpart | hother
  · exact (d.contains_parts hpart).trans (decide_eq_true hpart).symm
  · have hforeign : file ∉ d.parts := by
      intro hpart
      obtain ⟨s, hs, hfile⟩ := List.mem_map.mp hpart
      exact d.foreign file hother s hs hfile.symm
    rw [Text.contains, decide_eq_false (h file hother), decide_eq_false hforeign]

theorem SplitDir.keepsOrder_iff : d.KeepsOrder ↔
    d.listing.filter (· ∈ d.parts) = d.parts ∧ ∀ file ∈ d.others, ¬diskPrefix <:+: file := by
  rw [keepsOrder_iff_filter]
  constructor
  · intro h
    have hothers : ∀ file ∈ d.others, ¬diskPrefix <:+: file := by
      intro file hother hpre
      have hlisted := d.perm.symm.subset (List.mem_append_right _ hother)
      have hchosen : file ∈ d.listing.filter (Text.contains diskPrefix) :=
        List.mem_filter.mpr ⟨hlisted, decide_eq_true hpre⟩
      rw [h] at hchosen
      obtain ⟨s, hs, hfile⟩ := List.mem_map.mp hchosen
      exact d.foreign file hother s hs hfile.symm
    exact ⟨(d.filter_listing hothers).symm.trans h, hothers⟩
  · rintro ⟨horder, hothers⟩
    exact (d.filter_listing hothers).trans horder

def unordered : SplitDir where
  suffixes := [.aa, .ab]
  increasing := increasing_aa_ab
  others := ["notes.txt".toList]
  foreign := by decide
  listing := ["disk-image-amd64-ab".toList, "disk-image-amd64-aa".toList, "notes.txt".toList]
  perm := .swap ..

theorem not_keepsOrder_unordered : ¬unordered.KeepsOrder := by
  rw [SplitDir.keepsOrder_iff_filter]
  decide

end Order

end VSwarm.Resources
