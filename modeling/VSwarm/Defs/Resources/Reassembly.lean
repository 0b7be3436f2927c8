import VSwarm.Lib.Listing
import VSwarm.Defs.Resources.ArtifactsLaws

namespace VSwarm.Resources

open VSwarm.Lib

structure Suffix where
  text : List Char
  lower : text.all Char.isLower = true
  deriving DecidableEq

/-- A part that `get_urls` takes for a checksum. -/
def Suffix.hidden (s : Suffix) : Bool := Text.contains "sums".toList s.text

inductive AssetName
  | part (os : Os) (arch : Arch) (suffix : Suffix)
  | sums (os : Os) (arch : Arch)
  | kernel (os : Os) (arch : Arch)
  | client (arch : Arch)

def AssetName.text : AssetName → String
  | .part os arch suffix => diskName ⟨os, arch, .other⟩ ++ ".tar.gz." ++ String.ofList suffix.text
  | .sums os arch => diskName ⟨os, arch, .other⟩ ++ ".sums"
  | .kernel os arch => kernelName ⟨os, arch, .other⟩
  | .client arch => clientName ⟨.focal, arch, .other⟩

def partText (args : Args) (s : Suffix) : String :=
  (AssetName.part args.osVersion args.arch s).text

def AssetName.suffix? (args : Args) : AssetName → Option Suffix
  | .part os arch suffix => if os = args.osVersion ∧ arch = args.arch then some suffix else none
  | _ => none

/-- A release: the parts of the requested image in the order in which they were
cut, its other assets, and the order in which all of them are listed. -/
structure Published (args : Args) where
  suffixes : List Suffix
  increasing : suffixes.Pairwise (·.text < ·.text)
  others : List AssetName
  foreign : ∀ name ∈ others, name.suffix? args = none
  listed : List AssetName
  perm : listed.Perm (suffixes.map (.part args.osVersion args.arch) ++ others)

theorem lower_text (s : Suffix) {c : Char} (hc : c.isLower = false) : c ∉ s.text := by
  intro h
  rw [List.all_eq_true.mp s.lower c h] at hc
  cases hc

theorem plain_text (name : AssetName) : '/' ∉ name.text.toList := by
  cases name with
  | part os arch suffix =>
    have hname : '/' ∉ (diskName ⟨os, arch, .other⟩).toList := by
      cases os <;> cases arch <;> decide
    have hlower : '/' ∉ (String.ofList suffix.text).toList := by
      rw [String.toList_ofList]
      exact lower_text suffix (by decide)
    rw [AssetName.text, String.toList_append, String.toList_append, List.mem_append,
      List.mem_append, not_or, not_or]
    exact ⟨⟨hname, by decide⟩, hlower⟩
  | sums os arch => cases os <;> cases arch <;> decide
  | kernel os arch => cases os <;> cases arch <;> decide
  | client arch => cases arch <;> decide

def AssetName.asset (base : String) (content : String → Bytes) (name : AssetName) : Asset where
  name := name.text
  base := base
  content := content name.text
  plain := plain_text name

def Serves (env : Environment) (assets : List Asset) : Prop :=
  ∀ i, ∀ a ∈ assets, (env.get i a.url).body = a.content

def diskTmp (env : Environment) (urls : List String) (v : World) : Option Bytes :=
  (downloadParts env urls { v with files := v.files.write tmpfile [] }).files tmpfile

def reassembledArchive (file : String) (names : List String) (content : String → Bytes) : Bytes :=
  (Listing.glob (file ++ ".tar.gz.").toList (names.map String.toList)).flatMap fun name =>
    content (String.ofList name)

/-- Both scripts put the parts together in the order in which they were cut. -/
def Published.Reassembled {args : Args} (p : Published args) : Prop :=
  ∀ base content image env v, Serves env (p.listed.map (AssetName.asset base content)) →
    diskTmp env
        (Release.getUrls ⟨p.listed.map (AssetName.asset base content), image⟩ (diskName args)) v =
      some (p.suffixes.flatMap fun s => content (partText args s)) ∧
    reassembledArchive (diskName args) (p.listed.map AssetName.text) content =
      p.suffixes.flatMap fun s => content (partText args s)

section Names

variable {args : Args} {name : AssetName} {suffix : Suffix}

theorem eq_part_of_suffix? (h : name.suffix? args = some suffix) :
    name = .part args.osVersion args.arch suffix := by
  cases name with
  | part os arch s =>
    simp only [AssetName.suffix?] at h
    split at h
    · rename_i heq
      obtain rfl := Option.some.inj h
      rw [heq.1, heq.2]
    · cases h
  | _ => cases h

@[simp] theorem suffix?_part (args : Args) (s : Suffix) :
    (AssetName.part args.osVersion args.arch s).suffix? args = some s := by
  simp [AssetName.suffix?]

theorem toList_part (args : Args) (s : Suffix) :
    (AssetName.part args.osVersion args.arch s).text.toList =
      (diskName args ++ ".tar.gz.").toList ++ s.text := by
  have hname : diskName ⟨args.osVersion, args.arch, .other⟩ = diskName args := rfl
  rw [AssetName.text, hname, String.toList_append, String.toList_ofList]

theorem toList_sums (args : Args) :
    (AssetName.sums args.osVersion args.arch).text.toList =
      (diskName args).toList ++ ".sums".toList := by
  have hname : diskName ⟨args.osVersion, args.arch, .other⟩ = diskName args := rfl
  rw [AssetName.text, hname, String.toList_append]

theorem partText_injective (args : Args) : Function.Injective (partText args) := by
  intro s s' h
  have htext := congrArg String.toList h
  rw [partText, partText, toList_part, toList_part, List.append_cancel_left_eq] at htext
  cases s
  cases s'
  cases htext
  rfl

theorem diskName_infix {os os' : Os} {arch arch' : Arch} {t : List Char}
    (ht : t ∈ [['.'], ['.', 's']])
    (h : (diskName ⟨os, arch, .other⟩).toList <:+: (diskName ⟨os', arch', .other⟩).toList ++ t) :
    os' = os ∧ arch' = arch := by
  revert h
  rcases List.mem_pair.mp ht with rfl | rfl <;>
    cases os <;> cases arch <;> cases os' <;> cases arch' <;> decide

theorem chars_diskName (args : Args) :
    't' ∉ (diskName args).toList ∧ 'u' ∉ (diskName args).toList ∧ '-' ∈ (diskName args).toList := by
  unfold diskName
  cases args.osVersion <;> cases args.arch <;> decide

theorem length_diskName (args : Args) : (diskName args).toList.length = 28 := by
  unfold diskName
  cases args.osVersion <;> cases args.arch <;> decide

theorem length_text_lt : (∀ os arch, (AssetName.kernel os arch).text.toList.length < 28) ∧
    ∀ arch, (AssetName.client arch).text.toList.length < 28 := by
  refine ⟨fun os arch => ?_, fun arch => ?_⟩
  · cases os <;> cases arch <;> decide
  · cases arch <;> decide

theorem eq_sums_of_infix (h : name.suffix? args = none)
    (hdisk : (diskName args).toList <:+: name.text.toList) :
    name = .sums args.osVersion args.arch := by
  obtain ⟨ht, hu, hdash⟩ := chars_diskName args
  have hlength := length_diskName args ▸ hdisk.length_le
  cases name with
  | part os arch s =>
    have hsplit : (AssetName.part os arch s).text.toList =
        ((diskName ⟨os, arch, .other⟩).toList ++ ['.']) ++ 't' :: ("ar.gz.".toList ++ s.text) := by
      simp [AssetName.text]
    rw [hsplit, Text.infix_append_cons ht] at hdisk
    rcases hdisk with hdisk | hdisk
    · obtain ⟨rfl, rfl⟩ := diskName_infix (by simp) hdisk
      simp at h
    · refine absurd hdisk (Text.not_infix_of_notMem hdash ?_)
      rw [List.mem_append, not_or]
      exact ⟨by decide, lower_text s (by decide)⟩
  | sums os arch =>
    have hsplit : (AssetName.sums os arch).text.toList =
        ((diskName ⟨os, arch, .other⟩).toList ++ ['.', 's']) ++ 'u' :: "ms".toList := by
      simp [AssetName.text]
    rw [hsplit, Text.infix_append_cons hu] at hdisk
    rcases hdisk with hdisk | hdisk
    · obtain ⟨rfl, rfl⟩ := diskName_infix (by simp) hdisk
      rfl
    · exact absurd hdisk (Text.not_infix_of_notMem hdash (by decide))
  | kernel os arch => exact absurd (length_text_lt.1 os arch) (Nat.not_lt.mpr hlength)
  | client arch => exact absurd (length_text_lt.2 arch) (Nat.not_lt.mpr hlength)

theorem sums_infix_part (args : Args) (s : Suffix) :
    "sums".toList <:+: (AssetName.part args.osVersion args.arch s).text.toList ↔
      "sums".toList <:+: s.text := by
  have hsplit : (AssetName.part args.osVersion args.arch s).text.toList =
      (diskName args ++ ".tar.gz").toList ++ '.' :: s.text := by
    rw [toList_part]
    simp
  rw [hsplit, Text.infix_append_cons (by decide)]
  refine or_iff_right (Text.not_infix_of_notMem (x := 'u') (by decide) ?_)
  rw [String.toList_append, List.mem_append, not_or]
  exact ⟨(chars_diskName args).2.1, by decide⟩

end Names

section Reassembly

variable {args : Args} (p : Published args) (base : String) (content : String → Bytes)

def Published.chosen : List Suffix :=
  (p.listed.filterMap (AssetName.suffix? args)).filter fun s => !s.hidden

theorem keep_asset (name : AssetName) :
    (!(name.asset base content).hasName "sums" &&
        (name.asset base content).hasName (diskName args)) =
      (name.suffix? args).any fun s => !s.hidden := by
  cases h : name.suffix? args with
  | some s =>
    obtain rfl := eq_part_of_suffix? h
    have hdisk : (diskName args).toList <:+:
        (AssetName.part args.osVersion args.arch s).text.toList := by
      rw [toList_part, String.toList_append, List.append_assoc]
      exact (List.prefix_append _ _).isInfix
    simp only [Asset.hasName, AssetName.asset, Text.contains, sums_infix_part, hdisk]
    simp [Suffix.hidden, Text.contains]
  | none =>
    by_cases hdisk : (diskName args).toList <:+: name.text.toList
    · obtain rfl := eq_sums_of_infix h hdisk
      have hsums : "sums".toList <:+: (AssetName.sums args.osVersion args.arch).text.toList := by
        have hend : "sums".toList <:+ ".sums".toList := List.suffix_cons '.' _
        rw [toList_sums]
        exact (hend.trans (List.suffix_append _ _)).isInfix
      simp only [Asset.hasName, AssetName.asset, Text.contains, hsums]
      rfl
    · simp [Asset.hasName, AssetName.asset, Text.contains, hdisk]

theorem filter_assets (names : List AssetName) :
    (names.map (AssetName.asset base content)).filter
        (fun a => !a.hasName "sums" && a.hasName (diskName args)) =
      ((names.filterMap (AssetName.suffix? args)).filter fun s => !s.hidden).map
        fun s => (AssetName.part args.osVersion args.arch s).asset base content := by
  induction names with
  | nil => rfl
  | cons name names ih =>
    rw [List.map_cons, List.filter_cons, keep_asset, ih]
    cases h : name.suffix? args with
    | none => simp [h]
    | some s =>
      obtain rfl := eq_part_of_suffix? h
      rw [List.filterMap_cons_some h, List.filter_cons]
      cases hs : s.hidden <;> simp [hs]

theorem received_of_serves {env : Environment} {assets : List Asset} (h : Serves env assets)
    (i : Nat) : received env i (assets.map Asset.url) = assets.flatMap Asset.content := by
  induction assets generalizing i with
  | nil => rfl
  | cons a assets ih =>
    have ha := h i a List.mem_cons_self
    have hrest : Serves env assets := fun i a hmem => h i a (List.mem_cons_of_mem _ hmem)
    rw [List.map_cons, received, ha, ih hrest, List.flatMap_cons]

theorem diskTmp_eq {env : Environment} (image : Bytes) (v : World)
    (h : Serves env (p.listed.map (AssetName.asset base content))) :
    diskTmp env (Release.getUrls ⟨p.listed.map (AssetName.asset base content), image⟩
        (diskName args)) v =
      some (p.chosen.flatMap fun s => content (partText args s)) := by
  have hserves := fun i a ha => h i a (List.mem_of_mem_filter (p := fun a =>
    !a.hasName "sums" && a.hasName (diskName args)) ha)
  rw [diskTmp, downloadParts_tmpfile (b := []) (by simp), Release.getUrls,
    received_of_serves hserves, filter_assets, List.flatMap_map]
  rfl

theorem Published.suffix?_perm : (p.listed.filterMap (AssetName.suffix? args)).Perm p.suffixes := by
  have hparts : (p.suffixes.map (AssetName.part args.osVersion args.arch)).filterMap
      (AssetName.suffix? args) = p.suffixes := by
    rw [List.filterMap_map]
    exact (List.filterMap_congr fun s _ => suffix?_part args s).trans List.filterMap_some
  have hothers : p.others.filterMap (AssetName.suffix? args) = [] :=
    List.filterMap_eq_nil_iff.mpr p.foreign
  have hperm := p.perm.filterMap (AssetName.suffix? args)
  rwa [List.filterMap_append, hparts, hothers, List.append_nil] at hperm

theorem prefix_iff (name : AssetName) :
    (diskName args ++ ".tar.gz.").toList <+: name.text.toList ↔ (name.suffix? args).isSome := by
  cases h : name.suffix? args with
  | some s =>
    obtain rfl := eq_part_of_suffix? h
    simp [toList_part]
  | none =>
    refine iff_of_false (fun hpre => ?_) (by simp)
    rw [String.toList_append] at hpre
    have hdisk := ((List.prefix_append (diskName args).toList ".tar.gz.".toList).trans hpre).isInfix
    obtain rfl := eq_sums_of_infix h hdisk
    rw [toList_sums, List.prefix_append_right_inj] at hpre
    revert hpre
    decide

theorem filter_glob (names : List AssetName) :
    (names.map fun n => n.text.toList).filter
        (fun name => (diskName args ++ ".tar.gz.").toList.isPrefixOf name) =
      (names.filterMap (AssetName.suffix? args)).map
        fun s => (diskName args ++ ".tar.gz.").toList ++ s.text := by
  induction names with
  | nil => rfl
  | cons name names ih =>
    rw [List.map_cons, List.filter_cons, ih]
    have hpre := @prefix_iff args name
    rw [← List.isPrefixOf_iff_prefix] at hpre
    cases h : name.suffix? args with
    | none => simp_all
    | some s =>
      rw [List.filterMap_cons_some h, if_pos (hpre.mpr (by simp [h])), eq_part_of_suffix? h,
        toList_part, List.map_cons]

theorem reassembledArchive_eq :
    reassembledArchive (diskName args) (p.listed.map AssetName.text) content =
      p.suffixes.flatMap fun s => content (partText args s) := by
  have hglob : Listing.glob (diskName args ++ ".tar.gz.").toList
      ((p.listed.map AssetName.text).map String.toList) =
        p.suffixes.map fun s => (diskName args ++ ".tar.gz.").toList ++ s.text := by
    refine Listing.sort_of_perm ?_ ?_
    · have hne : (diskName args ++ ".tar.gz.").toList ≠ [] := by simp
      simp only [List.map_map, ne_eq, hne, not_false_eq_true, decide_true, Bool.true_or,
        Bool.and_true, Function.comp_def]
      rw [filter_glob]
      exact p.suffix?_perm.map _
    · exact List.pairwise_map.mpr (p.increasing.imp List.append_left_lt)
  rw [reassembledArchive, hglob, List.flatMap_map]
  refine List.flatMap_congr fun s _ => ?_
  rw [← toList_part, String.ofList_toList, partText]

theorem chosen_eq_iff : p.chosen = p.suffixes ↔
    p.listed.filterMap (AssetName.suffix? args) = p.suffixes ∧
      ∀ s ∈ p.suffixes, s.hidden = false := by
  have hperm := p.suffix?_perm
  constructor
  · intro h
    have hall : ∀ s ∈ p.suffixes, s.hidden = false := by
      intro s hs
      rw [← h, Published.chosen, List.mem_filter] at hs
      simpa using hs.2
    refine ⟨?_, hall⟩
    rw [← h, Published.chosen, List.filter_eq_self.mpr]
    intro s hs
    simpa using hall s (hperm.subset hs)
  · rintro ⟨horder, hall⟩
    rw [Published.chosen, horder, List.filter_eq_self]
    intro s hs
    simpa using hall s hs

def server (content : String → Bytes) : Environment where
  get _ url := ⟨0, content (basename url)⟩
  extract _ _ := none

theorem server_serves (names : List AssetName) :
    Serves (server content) (names.map (AssetName.asset base content)) := by
  intro i a ha
  obtain ⟨name, -, rfl⟩ := List.mem_map.mp ha
  simp [server, AssetName.asset]

theorem reassembled_iff_chosen : p.Reassembled ↔ p.chosen = p.suffixes := by
  constructor
  · intro h
    have hnames : p.chosen.map (partText args) = p.suffixes.map (partText args) := by
      refine (Listing.flatMap_inj (x := (0 : UInt8)) (y := 1) (by decide)).mp fun content => ?_
      have hserves := server_serves "" content p.listed
      obtain ⟨hright, -⟩ := h "" content [] (server content) ⟨fun _ => none, 0, []⟩ hserves
      rw [diskTmp_eq p "" content [] _ hserves] at hright
      rw [List.flatMap_map, List.flatMap_map]
      exact Option.some.inj hright
    exact List.map_injective_iff.mpr (partText_injective args) hnames
  · intro h base content image env v hserves
    rw [diskTmp_eq p base content image v hserves, h]
    exact ⟨rfl, reassembledArchive_eq p content⟩

theorem reassembled_iff : p.Reassembled ↔
    p.listed.filterMap (AssetName.suffix? args) = p.suffixes ∧
      ∀ s ∈ p.suffixes, ¬"sums".toList <:+: s.text := by
  have hhidden : (∀ s ∈ p.suffixes, ¬"sums".toList <:+: s.text) ↔
      ∀ s ∈ p.suffixes, s.hidden = false := by
    refine forall₂_congr fun s _ => ?_
    rw [Suffix.hidden, Text.contains, decide_eq_false_iff_not]
  rw [hhidden, ← chosen_eq_iff, reassembled_iff_chosen]

def Suffix.aa : Suffix := ⟨"aa".toList, by decide⟩

def Suffix.ab : Suffix := ⟨"ab".toList, by decide⟩

theorem increasing_aa_ab : [Suffix.aa, .ab].Pairwise (·.text < ·.text) := by decide

def shuffled : Published {} where
  suffixes := [.aa, .ab]
  increasing := increasing_aa_ab
  others := [.sums .focal .amd64, .kernel .focal .amd64, .client .amd64, .part .jammy .amd64 .aa]
  foreign := by simp [AssetName.suffix?]
  listed := [.part .focal .amd64 .ab, .part .focal .amd64 .aa, .sums .focal .amd64,
    .kernel .focal .amd64, .client .amd64, .part .jammy .amd64 .aa]
  perm := .swap ..

theorem not_reassembled_shuffled : ¬shuffled.Reassembled := by
  rw [reassembled_iff_chosen]
  decide

end Reassembly

end VSwarm.Resources
