import Mathlib
import VSwarm.Defs.Resources.Upload

namespace VSwarm.Resources.DownloadDisk

open VSwarm.Lib

structure Release where
  id : Nat
  tagName : String
  assets : OrderedDict PortableName Bytes

structure Vars where
  releaseId : Option String := none
  tagName : String := ""

def Vars.target (vars : Vars) : String := vars.releaseId.getD "68604631"

/-- `TAG_NAME`.  The script tests a text for emptiness that is not the variable. -/
def Vars.tag (vars : Vars) (releases : List Release) : String :=
  if "\x7bTAG_NAME\x7d" = "" then
    ((releases.find? fun r => toString r.id = vars.target).map Release.tagName).getD ""
  else vars.tagName

/-- A pattern of `jq` in which only the dot is special, at the start of a text. -/
def matchStart : List Char → List Char → Bool
  | [], _ => true
  | _ :: _, [] => false
  | c :: p, d :: s => (c == '.' || c == d) && matchStart p s

def jqMatch (p s : List Char) : Bool := s.tails.any (matchStart p)

def files (vars : Vars) (releases : List Release) (asset : PortableName) : List PortableName :=
  (releases.filter fun r => r.tagName = vars.tag releases).flatMap fun r =>
    r.assets.keys.filter fun name => jqMatch asset.text name.text

/-- What `curl` does: it ends well with some body, which may be the text of an
error, or it fails and may leave a file behind. -/
inductive Transfer
  | done (body : Bytes)
  | failed (left : Option Bytes)

def Transfer.ok : Transfer → Bool
  | .done _ => true
  | .failed _ => false

abbrev Tmpdn := OrderedDict PortableName Bytes

def bytes (messages : Bytes) : Payload → Bytes
  | .file b => b
  | .response => messages

def downloadAll (curl : Nat → PortableName → Transfer) :
    Nat → List PortableName → Tmpdn → Tmpdn × Bool
  | _, [], d => (d, true)
  | i, f :: fs, d =>
    match curl i f with
    | .done body => downloadAll curl (i + 1) fs (d.insert f body)
    | .failed left => (left.elim d (d.insert f), false)

def nameString (n : PortableName) : String := String.ofList n.text

def tmp2TarGz : PortableName := ⟨"tmp2.tar.gz".toList, by decide, by decide⟩

def content (d : Tmpdn) (name : String) : Bytes :=
  ((d.entries.find? fun e => nameString e.1 = name).map Prod.snd).getD []

def archive (file : PortableName) (d : Tmpdn) : Bytes :=
  reassembledArchive (nameString file) (d.keys.map nameString) (content d)

def hasParts (file : PortableName) (d : Tmpdn) : Bool :=
  d.keys.any fun name => (file.text ++ ".tar.gz.".toList).isPrefixOf name.text

/-- `pigz -cd | tar xf -`, with the files that it extracts and whether it ends
well, and `shasum -c`, which reads the directory. -/
structure Untools where
  untar : Bytes → List (PortableName × Bytes) × Bool
  check : Bytes → (PortableName → Option Bytes) → Bool

section Script

variable (u : Untools)

def extract (files : List (PortableName × Bytes)) (d : Tmpdn) : Tmpdn :=
  files.foldl (fun d file => d.insert file.1 file.2) d

/-- A pattern that matches nothing is taken literally, and `cat` fails. -/
def decompressSplit (file : PortableName) (d : Tmpdn) : Tmpdn × Bool :=
  if hasParts file d then
    let bytes := archive file d
    let d := extract (u.untar bytes).1 (d.insert tmp2TarGz bytes)
    if (u.untar bytes).2 then
      let d := d.erase tmp2TarGz
      (d, (d.get? file.sums).any fun sums => u.check sums d.get?)
    else (d, false)
  else (d.insert tmp2TarGz [], false)

structure Outcome where
  disk : Option Bytes
  tmpdn : Tmpdn

/-- One run; every command that fails ends it, and the scratch directory is removed
only at its end. -/
def downloadDisk (vars : Vars) (releases : List Release) (asset : PortableName)
    (curl : Nat → PortableName → Transfer) (v : Tmpdn) : Outcome :=
  let (d, downloaded) := downloadAll curl 0 (files vars releases asset) v
  if downloaded then
    let (d, verified) := decompressSplit u asset d
    match verified, d.get? asset with
    | true, some disk => ⟨some disk, .empty⟩
    | _, _ => ⟨none, d⟩
  else ⟨none, d⟩

end Script

/-- What `upload-disk` has published: a run has completed, and the release lists its
uploads and other assets in any order. -/
structure Publication (t : Tools) where
  asset : PortableName
  image : Bytes
  plain : asset ≠ tmpTarGz
  tmpup : Tmpup
  clean : Clean t tmpup (.disk asset image plain)
  ok : Nat → Bool
  completed : (Attempt.run t ⟨.disk asset image plain, ok⟩ tmpup).completed = true
  vars : Vars
  release : Release
  target : toString release.id = vars.target
  tagged : release.tagName = vars.tagName
  releases : List Release
  listed : release ∈ releases
  tags : (releases.map Release.tagName).Nodup
  others : List (PortableName × Bytes)
  messages : Bytes
  perm : release.assets.entries.Perm
    (others ++ (Attempt.run t ⟨.disk asset image plain, ok⟩ tmpup).uploads.map fun u =>
      (u.1, bytes messages u.2))

/-- The tools undo each other on the image: the parts of `split` come in the order of
their names, and `shasum -c` accepts the image and no other file. -/
structure Faithful (t : Tools) (u : Untools) (asset : PortableName) (image : Bytes) : Prop where
  parts : t.split (t.tar asset image) ≠ []
  joined : (t.split (t.tar asset image)).flatMap Prod.snd = t.tar asset image
  increasing : ((t.split (t.tar asset image)).map Prod.fst).Pairwise (·.text < ·.text)
  untar : u.untar (t.tar asset image) = ([(asset, image)], true)
  check : ∀ dir, u.check (t.shasum asset image) dir = true ↔ dir asset = some image

section Transfers

variable {curl : Nat → PortableName → Transfer} {fs : List PortableName} {d : Tmpdn} {i : Nat}

theorem downloadAll_ok : (downloadAll curl i fs d).2 =
    (fs.zipIdx i).all fun f => (curl f.2 f.1).ok := by
  induction fs generalizing i d with
  | nil => rfl
  | cons f fs ih =>
    rw [downloadAll, List.zipIdx_cons, List.all_cons]
    cases h : curl i f with
    | done body => simp [Transfer.ok, ih]
    | failed left => simp [Transfer.ok]

theorem mem_keys_insert {d : Tmpdn} {n n' : PortableName} {b : Bytes} :
    n ∈ (d.insert n' b).keys ↔ n = n' ∨ n ∈ d.keys := by
  rw [OrderedDict.mem_keys, OrderedDict.get?_insert, OrderedDict.mem_keys]
  by_cases h : n = n' <;> simp [h]

theorem mem_keys_downloadAll {n : PortableName} (h : n ∈ (downloadAll curl i fs d).1.keys) :
    n ∈ d.keys ∨ n ∈ fs := by
  induction fs generalizing i d with
  | nil => exact .inl h
  | cons f fs ih =>
    rw [downloadAll] at h
    cases hcurl : curl i f with
    | done body =>
      rw [hcurl] at h
      cases ih h with
      | inr hfs => exact .inr (.tail f hfs)
      | inl hd =>
        cases mem_keys_insert.mp hd with
        | inl hn => exact .inr (hn ▸ .head fs)
        | inr hd => exact .inl hd
    | failed left =>
      rw [hcurl] at h
      cases left with
      | none => exact .inl h
      | some b =>
        cases mem_keys_insert.mp h with
        | inl hn => exact .inr (hn ▸ .head fs)
        | inr hd => exact .inl hd

theorem get?_downloadAll (hok : (downloadAll curl i fs d).2 = true) (n : PortableName) :
    if n ∈ fs then ∃ j body, curl j n = .done body ∧ (downloadAll curl i fs d).1.get? n = some body
    else (downloadAll curl i fs d).1.get? n = d.get? n := by
  induction fs generalizing i d with
  | nil => simp [downloadAll]
  | cons f fs ih =>
    cases hcurl : curl i f with
    | failed left => simp [downloadAll, hcurl] at hok
    | done body =>
      simp only [downloadAll, hcurl] at hok ⊢
      have hrest := ih hok
      by_cases hn : n ∈ fs
      · rw [if_pos hn] at hrest
        rwa [if_pos (List.mem_cons_of_mem f hn)]
      · rw [if_neg hn, OrderedDict.get?_insert] at hrest
        by_cases hf : n = f
        · subst hf
          rw [if_pos rfl] at hrest
          rw [if_pos List.mem_cons_self]
          exact ⟨i, body, hcurl, hrest⟩
        · rw [if_neg hf] at hrest
          rwa [if_neg (by simp [hf, hn])]

end Transfers

section Names

theorem content_eq {d : Tmpdn} {name : PortableName} {b : Bytes} (h : d.get? name = some b) :
    content d (nameString name) = b := by
  have hname : ∀ n : PortableName, nameString n = nameString name ↔ n = name := by
    intro n
    refine ⟨fun hn => ?_, fun hn => hn ▸ rfl⟩
    have htext := String.ofList_injective hn
    cases n
    cases name
    cases htext
    rfl
  have hlookup : ∀ l : List (PortableName × Bytes),
      (l.find? fun e => nameString e.1 = nameString name).map Prod.snd = l.lookup name := by
    intro l
    induction l with
    | nil => rfl
    | cons e l ih =>
      rw [List.find?_cons, OrderedDict.lookup_cons_ite]
      by_cases he : e.1 = name
      · simp [he]
      · rw [if_neg (Ne.symm he), ← ih]
        simp [hname, he]
  rw [content, hlookup]
  exact congrArg (Option.getD · []) h

theorem matchStart_append (p s : List Char) : matchStart p (p ++ s) = true := by
  induction p with
  | nil => rfl
  | cons c p ih => simp [matchStart, ih]

theorem jqMatch_append (p s : List Char) : jqMatch p (p ++ s) = true :=
  List.any_eq_true.mpr ⟨p ++ s, (List.mem_tails _ _).mpr (List.suffix_refl _), matchStart_append p s⟩

end Names

section Published

variable {t : Tools} (p : Publication t)

def Publication.own : List (PortableName × Bytes) :=
  (p.asset.sums, t.shasum p.asset p.image) :: t.parts p.asset p.image

theorem Publication.entries_perm : p.release.assets.entries.Perm (p.others ++ p.own) := by
  refine p.perm.trans (List.Perm.append_left _ ?_)
  have huploads := (perm_of_clean p.completed p.clean).map fun u => (u.1, bytes p.messages u.2)
  rw [List.map_map] at huploads
  refine huploads.trans (List.Perm.of_eq ?_)
  exact List.map_id _

theorem Publication.get?_file {file : PortableName × Bytes} (h : file ∈ p.own) :
    p.release.assets.get? file.1 = some file.2 := by
  have hmem : file ∈ p.release.assets.entries :=
    p.entries_perm.mem_iff.mpr (List.mem_append_right _ h)
  exact OrderedDict.get?_eq_some.mpr hmem

theorem Publication.mem_files {name : PortableName} :
    name ∈ files p.vars p.releases p.asset ↔
      name ∈ p.release.assets.keys ∧ jqMatch p.asset.text name.text = true := by
  have htag : p.vars.tag p.releases = p.release.tagName := by
    rw [p.tagged]
    exact if_neg (by decide)
  rw [files, htag, List.mem_flatMap]
  constructor
  · intro ⟨r, hr, hname⟩
    obtain ⟨hr, htag⟩ := List.mem_filter.mp hr
    obtain rfl := List.inj_on_of_nodup_map p.tags hr p.listed (of_decide_eq_true htag)
    exact List.mem_filter.mp hname
  · intro h
    refine ⟨p.release, List.mem_filter.mpr ⟨p.listed, by simp⟩, List.mem_filter.mpr h⟩

theorem Publication.requested {name : PortableName} (h : name ∈ p.own.map Prod.fst) :
    name ∈ files p.vars p.releases p.asset := by
  obtain ⟨file, hfile, rfl⟩ := List.mem_map.mp h
  refine p.mem_files.mpr ⟨?_, ?_⟩
  · rw [OrderedDict.mem_keys, p.get?_file hfile]
    rfl
  · cases List.mem_cons.mp hfile with
    | inl h => exact h ▸ jqMatch_append p.asset.text _
    | inr h =>
      obtain ⟨s, hs⟩ := mem_parts (List.mem_map_of_mem h)
      exact hs ▸ jqMatch_append p.asset.text _

/-- Nothing else on the release is taken for a part of the image. -/
def Publication.Foreign : Prop :=
  ∀ o ∈ p.others, ¬(p.asset.text ++ ".tar.gz.".toList) <+: o.1.text

def Publication.Honest (curl : Nat → PortableName → Transfer) : Prop :=
  ∀ i name body, curl i name = .done body → p.release.assets.get? name = some body

theorem part_text (n : PortableName) (s : Suffix) :
    (n.part s).text = (n.text ++ ".tar.gz.".toList) ++ s.text := by
  simp [PortableName.part, PortableName.append]

theorem Publication.mem_parts_of_within (hforeign : p.Foreign) {name : PortableName}
    (h : name ∈ p.release.assets.keys)
    (hpart : (p.asset.text ++ ".tar.gz.".toList) <+: name.text) :
    name ∈ (t.parts p.asset p.image).map Prod.fst := by
  obtain ⟨file, hfile, rfl⟩ := List.mem_map.mp h
  cases List.mem_append.mp (p.entries_perm.mem_iff.mp hfile) with
  | inl hother => exact absurd hpart (hforeign file hother)
  | inr hown =>
    cases List.mem_cons.mp hown with
    | inr hown => exact List.mem_map_of_mem hown
    | inl hsums =>
      subst hsums
      have hends : ".tar.gz.".toList <+: ".sums".toList :=
        (List.prefix_append_right_inj p.asset.text).mp hpart
      exact absurd hends (by decide)

end Published

section Archive

variable {t : Tools} {u : Untools} (p : Publication t) {d : Tmpdn}

structure Publication.Received (d : Tmpdn) : Prop where
  own : ∀ file ∈ p.own, d.get? file.1 = some file.2
  within : ∀ name ∈ d.keys, (p.asset.text ++ ".tar.gz.".toList) <+: name.text →
    name ∈ (t.parts p.asset p.image).map Prod.fst

theorem Publication.Received.glob_eq (h : p.Received d)
    (hincreasing : ((t.split (t.tar p.asset p.image)).map Prod.fst).Pairwise (·.text < ·.text)) :
    Listing.glob (nameString p.asset ++ ".tar.gz.").toList
        ((d.keys.map nameString).map String.toList) =
      (t.parts p.asset p.image).map fun part => part.1.text := by
  have hnames : (d.keys.map nameString).map String.toList = d.keys.map PortableName.text := by
    simp [nameString]
  have hpattern :
      (nameString p.asset ++ ".tar.gz.").toList = p.asset.text ++ ".tar.gz.".toList := by
    simp [nameString]
  have hinj : Function.Injective PortableName.text := by
    intro n n' h
    cases n
    cases n'
    cases h
    rfl
  have hparts : ((t.parts p.asset p.image).map fun part => part.1.text) =
      ((t.parts p.asset p.image).map Prod.fst).map PortableName.text := (List.map_map ..).symm
  rw [hnames, hpattern]
  refine Listing.sort_of_perm ?_ ?_
  · have hnodup : (d.keys.map PortableName.text).Nodup := d.nodup.map hinj
    rw [hparts, List.perm_ext_iff_of_nodup (hnodup.filter _) ((nodup_parts t _ _).map hinj)]
    intro text
    rw [List.mem_filter, List.mem_map, List.mem_map]
    have hne : p.asset.text ++ ".tar.gz.".toList ≠ [] := by simp
    simp only [hne, ne_eq, not_false_eq_true, decide_true, Bool.true_or, Bool.and_true,
      List.isPrefixOf_iff_prefix]
    constructor
    · intro ⟨⟨name, hname, htext⟩, hpart⟩
      exact ⟨name, h.within name hname (htext ▸ hpart), htext⟩
    · intro ⟨name, hname, htext⟩
      obtain ⟨part, hpart, rfl⟩ := List.mem_map.mp hname
      obtain ⟨s, hs⟩ := mem_parts hname
      refine ⟨⟨part.1, ?_, htext⟩, htext ▸ ?_⟩
      · rw [OrderedDict.mem_keys, h.own part (List.mem_cons_of_mem _ hpart)]
        rfl
      · rw [hs, part_text]
        exact List.prefix_append _ _
  · have htexts : ((t.parts p.asset p.image).map fun part => part.1.text) =
        ((t.split (t.tar p.asset p.image)).map Prod.fst).map fun s =>
          (p.asset.text ++ ".tar.gz.".toList) ++ s.text := by
      simp [Tools.parts, part_text]
    rw [htexts]
    exact List.pairwise_map.mpr (hincreasing.imp List.append_left_lt)

theorem Publication.Received.archive_eq (h : p.Received d)
    (hf : Faithful t u p.asset p.image) : archive p.asset d = t.tar p.asset p.image := by
  rw [archive, reassembledArchive, h.glob_eq p hf.increasing, List.flatMap_map]
  have hparts : ∀ part ∈ t.parts p.asset p.image,
      content d (String.ofList part.1.text) = part.2 := by
    intro part hpart
    exact content_eq (h.own part (List.mem_cons_of_mem _ hpart))
  rw [List.flatMap_congr hparts, Tools.parts, List.flatMap_map]
  exact hf.joined

theorem sums_ne_tmp2TarGz (n : PortableName) : n.sums ≠ tmp2TarGz := by
  intro h
  have hinfix : ".sums".toList <:+: n.sums.text := (List.suffix_append _ _).isInfix
  rw [h] at hinfix
  revert hinfix
  decide

theorem Publication.Received.hasParts_eq (h : p.Received d)
    (hf : Faithful t u p.asset p.image) : hasParts p.asset d = true := by
  obtain ⟨part, parts, hsplit⟩ := List.exists_cons_of_ne_nil hf.parts
  have hmem : (p.asset.part part.1, part.2) ∈ t.parts p.asset p.image := by
    simp [Tools.parts, hsplit]
  refine List.any_eq_true.mpr ⟨p.asset.part part.1, ?_, ?_⟩
  · rw [OrderedDict.mem_keys, h.own _ (List.mem_cons_of_mem _ hmem)]
    rfl
  · rw [List.isPrefixOf_iff_prefix, part_text]
    exact List.prefix_append _ _

theorem Publication.Received.decompressSplit_eq (h : p.Received d)
    (hf : Faithful t u p.asset p.image) (hname : p.asset ≠ tmp2TarGz) :
    (decompressSplit u p.asset d).2 = true ∧
      (decompressSplit u p.asset d).1.get? p.asset = some p.image := by
  have hsums : p.asset.sums ≠ p.asset := append_ne_self (by decide) (by decide)
  have hown := h.own _ List.mem_cons_self
  have hdisk : ((extract [(p.asset, p.image)] (d.insert tmp2TarGz (t.tar p.asset p.image))).erase
      tmp2TarGz).get? p.asset = some p.image := by
    rw [OrderedDict.get?_erase, if_neg hname]
    exact (OrderedDict.get?_insert ..).trans (if_pos rfl)
  have hkept : ((extract [(p.asset, p.image)] (d.insert tmp2TarGz (t.tar p.asset p.image))).erase
      tmp2TarGz).get? p.asset.sums = some (t.shasum p.asset p.image) := by
    rw [OrderedDict.get?_erase, if_neg (sums_ne_tmp2TarGz _), extract, List.foldl_cons,
      List.foldl_nil, OrderedDict.get?_insert, if_neg hsums, OrderedDict.get?_insert,
      if_neg (sums_ne_tmp2TarGz _), hown]
  simp only [decompressSplit, if_pos (h.hasParts_eq p hf), h.archive_eq p hf, hf.untar, if_true]
  rw [hkept]
  exact ⟨(hf.check _).mpr hdisk, hdisk⟩

theorem decompressSplit_verified {file : PortableName} (h : (decompressSplit u file d).2 = true)
    (hown : file.sums ∉ (u.untar (archive file d)).1.map Prod.fst) :
    ∃ sums, d.get? file.sums = some sums ∧
      u.check sums (decompressSplit u file d).1.get? = true := by
  simp only [decompressSplit] at h ⊢
  cases hparts : hasParts file d with
  | false => simp [hparts] at h
  | true =>
    simp only [hparts, if_true] at h ⊢
    cases hended : (u.untar (archive file d)).2 with
    | false => simp [hended] at h
    | true =>
      simp only [hended, if_true] at h ⊢
      have hkept : ((extract (u.untar (archive file d)).1
          (d.insert tmp2TarGz (archive file d))).erase tmp2TarGz).get? file.sums =
            d.get? file.sums := by
        rw [OrderedDict.get?_erase, if_neg (sums_ne_tmp2TarGz _), extract,
          OrderedDict.get?_foldl_of_notMem hown, OrderedDict.get?_insert,
          if_neg (sums_ne_tmp2TarGz _)]
      rw [hkept] at h
      exact (Option.any_eq_true _ _).mp h

end Archive

section History

variable {t : Tools} (u : Untools) (p : Publication t)

def Publication.run (curl : Nat → PortableName → Transfer) (v : Tmpdn) : Outcome :=
  downloadDisk u p.vars p.releases p.asset curl v

def Publication.starts : Tmpdn → List (Nat → PortableName → Transfer) →
    List (Tmpdn × (Nat → PortableName → Transfer))
  | _, [] => []
  | v, curl :: history => (v, curl) :: starts (p.run u curl v).tmpdn history

/-- What has been left behind is overwritten, or it is not taken for a part. -/
def Publication.Harmless (v : Tmpdn) : Prop :=
  ∀ name ∈ v.keys, (p.asset.text ++ ".tar.gz.".toList) <+: name.text →
    name ∈ p.release.assets.keys

def Publication.Undisturbed (curl : Nat → PortableName → Transfer) : Prop :=
  ∀ f ∈ (files p.vars p.releases p.asset).zipIdx, (curl f.2 f.1).ok = true

instance (curl : Nat → PortableName → Transfer) : Decidable (p.Undisturbed curl) :=
  inferInstanceAs (Decidable (∀ f ∈ _, _))

variable {u} {p} {curl : Nat → PortableName → Transfer} {v : Tmpdn}

theorem downloadAll_undisturbed :
    (downloadAll curl 0 (files p.vars p.releases p.asset) v).2 = true ↔ p.Undisturbed curl := by
  rw [downloadAll_ok, List.all_eq_true]
  rfl

theorem Publication.Harmless.downloadAll (hv : p.Harmless v) :
    p.Harmless (downloadAll curl 0 (files p.vars p.releases p.asset) v).1 := by
  intro name hname hpart
  cases mem_keys_downloadAll hname with
  | inl h => exact hv name h hpart
  | inr h => exact (p.mem_files.mp h).1

theorem received_of_honest (hforeign : p.Foreign) (hhonest : p.Honest curl)
    (hv : p.Harmless v) (hok : p.Undisturbed curl) :
    p.Received (downloadAll curl 0 (files p.vars p.releases p.asset) v).1 := by
  refine ⟨fun file hfile => ?_, fun name hname hpart => ?_⟩
  · have hget := get?_downloadAll (downloadAll_undisturbed.mpr hok) (d := v) file.1
    rw [if_pos (p.requested (List.mem_map_of_mem hfile))] at hget
    obtain ⟨j, body, hcurl, hget⟩ := hget
    rw [hget, ← hhonest j _ _ hcurl, p.get?_file hfile]
  · exact p.mem_parts_of_within hforeign (hv.downloadAll name hname hpart) hpart

theorem run_spec (hf : Faithful t u p.asset p.image) (hname : p.asset ≠ tmp2TarGz)
    (hforeign : p.Foreign) (hhonest : p.Honest curl) (hv : p.Harmless v) :
    (p.run u curl v).disk = (if p.Undisturbed curl then some p.image else none) ∧
      p.Harmless (p.run u curl v).tmpdn := by
  rw [Publication.run, downloadDisk]
  by_cases hok : p.Undisturbed curl
  · have hreceived := received_of_honest hforeign hhonest hv hok
    obtain ⟨hverified, hdisk⟩ := hreceived.decompressSplit_eq p hf hname
    simp only [downloadAll_undisturbed.mpr hok, if_true, hverified, hdisk, if_pos hok]
    exact ⟨trivial, fun name h => absurd h List.not_mem_nil⟩
  · have hfailed : (downloadAll curl 0 (files p.vars p.releases p.asset) v).2 = false := by
      rw [← Bool.not_eq_true]
      exact mt downloadAll_undisturbed.mp hok
    simp only [hfailed, Bool.false_eq_true, if_false, if_neg hok, true_and]
    exact hv.downloadAll

theorem starts_roundtrip (hf : Faithful t u p.asset p.image) (hname : p.asset ≠ tmp2TarGz)
    (hforeign : p.Foreign) (hv : p.Harmless v) (history : List (Nat → PortableName → Transfer))
    (hhonest : ∀ curl ∈ history, p.Honest curl) :
    ∀ s ∈ p.starts u v history,
      (p.run u s.2 s.1).disk = if p.Undisturbed s.2 then some p.image else none := by
  -- every run leaves the directory harmless again, whether its transfers fail or not
  induction history generalizing v with
  | nil => exact fun _ h => absurd h List.not_mem_nil
  | cons curl history ih =>
    intro s hs
    obtain ⟨hdisk, hleft⟩ := run_spec hf hname hforeign (hhonest curl List.mem_cons_self) hv
    cases List.mem_cons.mp hs with
    | inl h => exact h ▸ hdisk
    | inr h => exact ih hleft (fun c hc => hhonest c (List.mem_cons_of_mem _ hc)) s h

def diskImg : PortableName := ⟨"disk.img".toList, by decide, by decide⟩

def cutTools : Tools where
  shasum _ b := b
  tar _ b := 0 :: b
  split b := [(.aa, b.take 1), (.ab, b.drop 1)]
  nodup _ := by
    simp only [List.map_cons, List.map_nil]
    decide

def joinTools : Untools where
  untar b := ([(diskImg, b.tail)], b.head? == some 0)
  check sums dir := dir diskImg == some sums

theorem faithful_cutTools : Faithful cutTools joinTools diskImg [7] where
  parts := by decide
  joined := rfl
  increasing := increasing_aa_ab
  untar := rfl
  check dir := beq_iff_eq

theorem clean_cutTools (plain : diskImg ≠ tmpTarGz) :
    Clean cutTools .empty (.disk diskImg [7] plain) := by
  refine ⟨fun _ h => absurd h List.not_mem_nil, ?_⟩
  change response ∉ [diskImg.sums, diskImg.part .aa, diskImg.part .ab]
  decide

def shuffledRelease : Release where
  id := 68604631
  tagName := "v1"
  assets := ⟨[(diskImg.part .ab, [7]), (⟨"disk-img.txt".toList, by decide, by decide⟩, [3]),
    (diskImg.sums, [7]), (diskImg.part .aa, [0])], by decide⟩

def shuffledPublication : Publication cutTools where
  asset := diskImg
  image := [7]
  plain := by decide
  tmpup := .empty
  clean := clean_cutTools _
  ok _ := true
  completed := run_completed_of_ok (fun _ => rfl) rfl
  vars := ⟨none, "v1"⟩
  release := shuffledRelease
  target := by decide
  tagged := rfl
  releases := [shuffledRelease]
  listed := List.mem_singleton.mpr rfl
  tags := List.nodup_singleton _
  others := [(⟨"disk-img.txt".toList, by decide, by decide⟩, [3])]
  messages := []
  perm := by
    have huploads := (perm_of_clean (t := cutTools) (v := .empty)
      (a := ⟨.disk diskImg [7] (by decide), fun _ => true⟩)
      (run_completed_of_ok (fun _ => rfl) rfl) (clean_cutTools _)).map
        fun u => (u.1, bytes [] u.2)
    refine List.Perm.trans ?_ (huploads.symm.append_left _)
    decide

def served (_ : Nat) (name : PortableName) : Transfer :=
  match shuffledRelease.assets.get? name with
  | some body => .done body
  | none => .failed none

def interrupted (i : Nat) (name : PortableName) : Transfer :=
  if i = 1 then .failed (some [9]) else served i name

theorem honest_served : shuffledPublication.Honest served := by
  intro i name body h
  rw [served] at h
  split at h
  · rename_i hget
    cases h
    exact hget
  · cases h

theorem foreign_shuffledPublication : shuffledPublication.Foreign := by
  unfold Publication.Foreign
  decide

theorem starts_roundtrip_interrupted :
    (shuffledPublication.run joinTools served
      (shuffledPublication.run joinTools interrupted .empty).tmpdn).disk = some [7] := by
  have hinterrupted : shuffledPublication.Honest interrupted := by
    intro i name body h
    rw [interrupted] at h
    split at h
    · cases h
    · exact honest_served i name body h
  have hempty : shuffledPublication.Harmless .empty := fun _ h => absurd h List.not_mem_nil
  have hruns := starts_roundtrip (p := shuffledPublication) faithful_cutTools (by decide)
    foreign_shuffledPublication hempty [interrupted, served]
    (by simp [hinterrupted, honest_served]) _ (List.mem_cons_of_mem _ List.mem_cons_self)
  rwa [if_pos (by decide)] at hruns

theorem run_verified (hcheck : ∀ dir, u.check (t.shasum p.asset p.image) dir = true →
      dir p.asset = some p.image)
    (hsums : ∀ i body, curl i p.asset.sums = .done body → body = t.shasum p.asset p.image)
    (hown : p.asset.sums ∉ (u.untar (archive p.asset
      (downloadAll curl 0 (files p.vars p.releases p.asset) v).1)).1.map Prod.fst)
    {disk : Bytes} (h : (p.run u curl v).disk = some disk) : disk = p.image := by
  rw [Publication.run, downloadDisk] at h
  cases hok : (downloadAll curl 0 (files p.vars p.releases p.asset) v).2 with
  | false => simp [hok] at h
  | true =>
    simp only [hok, if_true] at h
    split at h
    · rename_i hverified hget
      obtain ⟨sums, hkept, haccepted⟩ := decompressSplit_verified hverified hown
      have hreceived := get?_downloadAll hok p.asset.sums
      rw [if_pos (p.requested List.mem_cons_self)] at hreceived
      obtain ⟨j, body, hcurl, hbody⟩ := hreceived
      obtain rfl := Option.some.inj (hkept.symm.trans hbody)
      rw [hsums j _ hcurl] at haccepted
      have himage := hget.symm.trans (hcheck _ haccepted)
      exact Option.some.inj (h.symm.trans himage)
    · cases h

def leftover : Tmpdn := ⟨[(diskImg, [5])], List.nodup_singleton _⟩

theorem run_verified_leftover :
    ∃ disk, (shuffledPublication.run joinTools served leftover).disk = some disk ∧ disk = [7] := by
  have hharmless : shuffledPublication.Harmless leftover := by
    unfold Publication.Harmless
    decide
  have hdisk := (run_spec (p := shuffledPublication) faithful_cutTools (by decide)
    foreign_shuffledPublication honest_served hharmless).1
  rw [if_pos (by decide)] at hdisk
  have hsums : ∀ i body, served i diskImg.sums = .done body → body = [7] := by
    intro i body h
    exact (Option.some.inj (honest_served i _ _ h)).symm
  refine ⟨_, hdisk, run_verified (fun dir => (faithful_cutTools.check dir).mp) hsums ?_ hdisk⟩
  exact fun h => absurd (List.mem_singleton.mp h) (by decide)

end History

end VSwarm.Resources.DownloadDisk
