import VSwarm.Lib.OrderedDict
import VSwarm.Defs.Resources.Reassembly

namespace VSwarm.Resources

open VSwarm.Lib

def isPortable (c : Char) : Bool := c.isAlphanum || c ∈ ['.', '_', '-']

/-- File names that neither the shell nor the URL of the request changes. -/
structure PortableName where
  text : List Char
  head : text.head?.any Char.isAlphanum = true
  chars : text.all isPortable = true
  deriving DecidableEq

def PortableName.append (n : PortableName) (ending : List Char)
    (h : ending.all isPortable = true) : PortableName where
  text := n.text ++ ending
  head := by
    have hhead := n.head
    cases htext : n.text with
    | nil => simp [htext] at hhead
    | cons c cs => simpa [htext] using hhead
  chars := by rw [List.all_append, n.chars, h]; rfl

theorem Suffix.portable (s : Suffix) : (".tar.gz.".toList ++ s.text).all isPortable = true := by
  rw [List.all_append, Bool.and_eq_true]
  refine ⟨by decide, List.all_eq_true.mpr fun c hc => ?_⟩
  have hdef : isPortable c =
      (((c.isUpper || c.isLower) || c.isDigit) || decide (c ∈ ['.', '_', '-'])) := rfl
  rw [hdef, List.all_eq_true.mp s.lower c hc, Bool.or_true, Bool.true_or, Bool.true_or]

def PortableName.sums (n : PortableName) : PortableName := n.append ".sums".toList (by decide)

def PortableName.part (n : PortableName) (s : Suffix) : PortableName :=
  n.append (".tar.gz.".toList ++ s.text) s.portable

def response : PortableName := ⟨"response".toList, by decide, by decide⟩

def tmpTarGz : PortableName := ⟨"tmp.tar.gz".toList, by decide, by decide⟩

/-- What a file holds: bytes, or the messages of `curl` during an upload. -/
inductive Payload
  | file (b : Bytes)
  | response
  deriving DecidableEq

abbrev Tmpup := OrderedDict PortableName Payload

structure Tools where
  shasum : PortableName → Bytes → Bytes
  tar : PortableName → Bytes → Bytes
  split : Bytes → List (Suffix × Bytes)
  nodup : ∀ b, ((split b).map Prod.fst).Nodup

inductive Job
  | disk (asset : PortableName) (content : Bytes) (plain : asset ≠ tmpTarGz)
  | dir (files : OrderedDict PortableName Bytes)

def write (files : List (PortableName × Bytes)) (d : Tmpup) : Tmpup :=
  files.foldl (fun d file => d.insert file.1 (.file file.2)) d

section Script

variable (t : Tools)

def Tools.parts (file : PortableName) (content : Bytes) : List (PortableName × Bytes) :=
  (t.split (t.tar file content)).map fun part => (file.part part.1, part.2)

def compressSplit (file : PortableName) (content : Bytes) (d : Tmpup) : Tmpup :=
  let d := d.insert file.sums (.file (t.shasum file content))
  let d := d.insert tmpTarGz (.file (t.tar file content))
  let d := write (t.parts file content) d
  d.erase tmpTarGz

def fill : Job → Tmpup → Option Tmpup
  | .disk asset content _, d =>
    some ((compressSplit t asset content (d.insert asset (.file content))).erase asset)
  | .dir files, d => if files.entries = [] then none else some (write files.entries d)

def globAll (d : Tmpup) : List PortableName :=
  d.keys.mergeSort fun a b => !decide (b.text < a.text)

structure Outcome where
  completed : Bool
  uploads : List (PortableName × Payload)
  tmpup : Tmpup

/-- The loop over the files; `ok i` tells whether the `i`-th upload is accepted.
`upload` opens `response` before `curl` reads the file. -/
def uploadAll (ok : Nat → Bool) : Nat → List PortableName → Tmpup → Outcome
  | _, [], d => ⟨true, [], d⟩
  | i, f :: fs, d =>
    let d := d.insert response .response
    match d.get? f with
    | none => ⟨false, [], d⟩
    | some body =>
      if ok i then
        let rest := uploadAll ok (i + 1) fs (d.erase response)
        { rest with uploads := (f, body) :: rest.uploads }
      else ⟨false, [], d⟩

structure Attempt where
  job : Job
  ok : Nat → Bool

/-- One run of the script.  The scratch directory is removed only at its end. -/
def Attempt.run (a : Attempt) (v : Tmpup) : Outcome :=
  match fill t a.job v with
  | none => ⟨false, [], v⟩
  | some d =>
    let o := uploadAll a.ok 0 (globAll d) d
    if o.completed then { o with tmpup := .empty } else o

def Job.files : Job → List (PortableName × Bytes)
  | .disk asset content _ => (asset.sums, t.shasum asset content) :: t.parts asset content
  | .dir files => files.entries

def Job.scratch : Job → List PortableName
  | .disk asset _ _ => [asset, tmpTarGz]
  | .dir _ => []

def starts : Tmpup → List Attempt → List (Tmpup × Attempt)
  | _, [] => []
  | v, a :: as => (v, a) :: starts (a.run t v).tmpup as

/-- A run that completes has uploaded its own files, each once and under its own
name, and nothing else. -/
def Exact (v : Tmpup) (a : Attempt) : Prop :=
  (a.run t v).completed = true →
    (a.run t v).uploads.Perm ((a.job.files t).map fun file => (file.1, .file file.2))

/-- Nothing has been left behind that the run does not overwrite or remove, and
none of its own files has the name of the response file. -/
def Clean (v : Tmpup) (job : Job) : Prop :=
  (∀ name ∈ v.keys, name ∈ (job.files t).map Prod.fst ∨ name ∈ job.scratch) ∧
    response ∉ (job.files t).map Prod.fst

end Script

section Names

variable {n : PortableName} {s s' : Suffix}

theorem part_injective (n : PortableName) : Function.Injective n.part := by
  intro s s' h
  have htext := congrArg PortableName.text h
  simp only [PortableName.part, PortableName.append, List.append_cancel_left_eq] at htext
  cases s
  cases s'
  cases htext
  rfl

theorem part_ne_sums : n.part s ≠ n.sums := by
  intro h
  have htext := congrArg PortableName.text h
  simp [PortableName.part, PortableName.sums, PortableName.append] at htext

theorem append_ne_self {ending : List Char} (h : ending.all isPortable = true) (hne : ending ≠ []) :
    n.append ending h ≠ n := by
  intro heq
  have htext := congrArg PortableName.text heq
  simp [PortableName.append, hne] at htext

theorem part_ne_tmpTarGz : n.part s ≠ tmpTarGz := by
  intro h
  have hinfix : ".tar.gz.".toList <:+: (n.part s).text :=
    ⟨n.text, s.text, by simp [PortableName.part, PortableName.append]⟩
  rw [h] at hinfix
  revert hinfix
  decide

theorem sums_ne_tmpTarGz : n.sums ≠ tmpTarGz := by
  intro h
  have hinfix : ".sums".toList <:+: n.sums.text := (List.suffix_append _ _).isInfix
  rw [h] at hinfix
  revert hinfix
  decide

end Names

section Fill

variable {t : Tools} {files : List (PortableName × Bytes)} {d v : Tmpup} {job : Job}

theorem get?_write_of_notMem {n : PortableName} (h : n ∉ files.map Prod.fst) :
    (write files d).get? n = d.get? n :=
  OrderedDict.get?_foldl_of_notMem h

theorem get?_write_of_mem (hnodup : (files.map Prod.fst).Nodup) {file : PortableName × Bytes}
    (h : file ∈ files) : (write files d).get? file.1 = some (.file file.2) :=
  OrderedDict.get?_foldl_of_mem hnodup h

theorem nodup_parts (t : Tools) (asset : PortableName) (content : Bytes) :
    ((t.parts asset content).map Prod.fst).Nodup := by
  have hparts : (t.parts asset content).map Prod.fst =
      ((t.split (t.tar asset content)).map Prod.fst).map asset.part := by
    simp [Tools.parts]
  rw [hparts]
  exact (t.nodup _).map (part_injective asset)

theorem mem_parts {asset name : PortableName} {content : Bytes}
    (h : name ∈ (t.parts asset content).map Prod.fst) : ∃ s, name = asset.part s := by
  obtain ⟨file, hfile, rfl⟩ := List.mem_map.mp h
  obtain ⟨part, -, rfl⟩ := List.mem_map.mp hfile
  exact ⟨part.1, rfl⟩

theorem nodup_files (t : Tools) (job : Job) : ((job.files t).map Prod.fst).Nodup := by
  cases job with
  | disk asset content plain =>
    rw [Job.files, List.map_cons, List.nodup_cons]
    refine ⟨fun h => ?_, nodup_parts t asset content⟩
    obtain ⟨s, hs⟩ := mem_parts h
    exact part_ne_sums hs.symm
  | dir files => exact files.nodup

theorem disjoint_scratch {name : PortableName} (h : name ∈ (job.files t).map Prod.fst) :
    name ∉ job.scratch := by
  cases job with
  | disk asset content plain =>
    rw [Job.scratch, List.mem_pair, not_or]
    rcases List.mem_cons.mp h with rfl | h
    · exact ⟨append_ne_self (by decide) (by decide), sums_ne_tmpTarGz⟩
    · obtain ⟨s, rfl⟩ := mem_parts h
      exact ⟨append_ne_self _ (by simp), part_ne_tmpTarGz⟩
  | dir files => exact List.not_mem_nil

theorem fill_spec (h : fill t job v = some d) :
    (∀ file ∈ job.files t, d.get? file.1 = some (.file file.2)) ∧
      ∀ name ∉ (job.files t).map Prod.fst,
        d.get? name = if name ∈ job.scratch then none else v.get? name := by
  cases job with
  | dir files =>
    simp only [fill] at h
    split at h
    · cases h
    · obtain rfl := Option.some.inj h
      refine ⟨fun file hfile => get?_write_of_mem files.nodup hfile, fun name hname => ?_⟩
      rw [Job.scratch, if_neg List.not_mem_nil]
      exact get?_write_of_notMem hname
  | disk asset content plain =>
    obtain rfl := Option.some.inj h
    have hget : ∀ name, name ∉ (Job.disk asset content plain).scratch →
        (((compressSplit t asset content (v.insert asset (.file content))).erase asset).get? name) =
          (write (t.parts asset content) (((v.insert asset (.file content)).insert asset.sums
            (.file (t.shasum asset content))).insert tmpTarGz (.file (t.tar asset content)))).get?
              name := by
      intro name hname
      rw [Job.scratch, List.mem_pair, not_or] at hname
      rw [OrderedDict.get?_erase, if_neg hname.1, compressSplit, OrderedDict.get?_erase,
        if_neg hname.2]
    constructor
    · intro file hfile
      rw [hget _ (disjoint_scratch (List.mem_map_of_mem hfile))]
      rcases List.mem_cons.mp hfile with rfl | hfile
      · have hparts : asset.sums ∉ (t.parts asset content).map Prod.fst := by
          intro hmem
          obtain ⟨s, hs⟩ := mem_parts hmem
          exact part_ne_sums hs.symm
        rw [get?_write_of_notMem hparts, OrderedDict.get?_insert, if_neg sums_ne_tmpTarGz,
          OrderedDict.get?_insert, if_pos rfl]
      · exact get?_write_of_mem (nodup_parts t asset content) hfile
    · intro name hname
      by_cases hscratch : name ∈ (Job.disk asset content plain).scratch
      · rw [if_pos hscratch, OrderedDict.get?_erase]
        rcases List.mem_pair.mp hscratch with rfl | rfl
        · rw [if_pos rfl]
        · rw [if_neg (Ne.symm plain), compressSplit, OrderedDict.get?_erase, if_pos rfl]
      · obtain ⟨hsums, hparts⟩ := not_or.mp (mt List.mem_cons.mpr hname)
        rw [if_neg hscratch, hget name hscratch, get?_write_of_notMem hparts]
        rw [Job.scratch, List.mem_pair, not_or] at hscratch
        simp [OrderedDict.get?_insert, hscratch, hsums]

end Fill

section Loop

variable {ok : Nat → Bool} {d d' : Tmpup}

theorem uploadAll_spec {i : Nat} {fs : List PortableName}
    (hd : ∀ name ≠ response, d'.get? name = d.get? name)
    (h : (uploadAll ok i fs d').completed = true) :
    (uploadAll ok i fs d').uploads.map Prod.fst = fs ∧
      ∀ u ∈ (uploadAll ok i fs d').uploads,
        if u.1 = response then u.2 = .response else d.get? u.1 = some u.2 := by
  induction fs generalizing i d' with
  | nil => simp [uploadAll]
  | cons f fs ih =>
    simp only [uploadAll] at h ⊢
    cases hget : (d'.insert response .response).get? f with
    | none => simp [hget] at h
    | some body =>
      simp only [hget] at h ⊢
      cases hok : ok i with
      | false => simp [hok] at h
      | true =>
        simp only [hok, if_true] at h ⊢
        have hrest : ∀ name ≠ response,
            ((d'.insert response .response).erase response).get? name = d.get? name := by
          intro name hname
          rw [OrderedDict.get?_erase, if_neg hname, OrderedDict.get?_insert, if_neg hname,
            hd _ hname]
        obtain ⟨hnames, hbodies⟩ := ih hrest h
        refine ⟨by rw [List.map_cons, hnames], fun u hu => ?_⟩
        rcases List.mem_cons.mp hu with rfl | hu
        · rw [OrderedDict.get?_insert] at hget
          by_cases hf : f = response
          · rw [if_pos hf] at hget ⊢
            exact (Option.some.inj hget).symm
          · rw [if_neg hf] at hget ⊢
            rw [← hd f hf, hget]
        · exact hbodies u hu

theorem uploadAll_completed {i : Nat} {fs : List PortableName} (hok : ∀ i, ok i = true)
    (hfs : ∀ f ∈ fs, f ≠ response → (d.get? f).isSome) :
    (uploadAll ok i fs d).completed = true := by
  induction fs generalizing i d with
  | nil => rfl
  | cons f fs ih =>
    have hrest : ∀ g ∈ fs, g ≠ response →
        (((d.insert response .response).erase response).get? g).isSome := by
      intro g hg hne
      rw [OrderedDict.get?_erase, if_neg hne, OrderedDict.get?_insert, if_neg hne]
      exact hfs g (List.mem_cons_of_mem f hg) hne
    have hget : ((d.insert response .response).get? f).isSome := by
      rw [OrderedDict.get?_insert]
      split
      · rfl
      · exact hfs f List.mem_cons_self ‹_›
    obtain ⟨body, hbody⟩ := Option.isSome_iff_exists.mp hget
    simp only [uploadAll, hbody, hok, if_true]
    exact ih hrest

theorem uploadAll_refused {i : Nat} {fs : List PortableName} (hok : ok i = false) (hne : fs ≠ []) :
    (uploadAll ok i fs d).completed = false ∧ response ∈ (uploadAll ok i fs d).tmpup.keys := by
  obtain ⟨f, fs, rfl⟩ := List.exists_cons_of_ne_nil hne
  have hleft : response ∈ (d.insert response .response).keys := by
    rw [OrderedDict.mem_keys, OrderedDict.get?_insert, if_pos rfl]
    rfl
  simp only [uploadAll, hok, Bool.false_eq_true, if_false]
  cases (d.insert response .response).get? f <;> exact ⟨rfl, hleft⟩

theorem globAll_perm (d : Tmpup) : (globAll d).Perm d.keys := List.mergeSort_perm ..

end Loop

section Runs

variable {t : Tools} {v d : Tmpup} {a : Attempt}

theorem run_completed (h : (a.run t v).completed = true) :
    ∃ d, fill t a.job v = some d ∧ (a.run t v).uploads.map Prod.fst = globAll d ∧
      ∀ u ∈ (a.run t v).uploads,
        if u.1 = response then u.2 = .response else d.get? u.1 = some u.2 := by
  unfold Attempt.run at h ⊢
  cases hfill : fill t a.job v with
  | none => simp [hfill] at h
  | some d =>
    simp only [hfill] at h ⊢
    have hloop : (uploadAll a.ok 0 (globAll d) d).completed = true := by
      by_contra hloop
      simp [hloop] at h
    rw [if_pos hloop]
    exact ⟨d, rfl, uploadAll_spec (fun _ _ => rfl) hloop⟩

theorem mem_uploads_of_key (h : (a.run t v).completed = true) (hfill : fill t a.job v = some d)
    {name : PortableName} (hname : name ∈ d.keys) :
    ∃ body, (name, body) ∈ (a.run t v).uploads := by
  obtain ⟨d', hfill', hnames, -⟩ := run_completed h
  obtain rfl := Option.some.inj (hfill.symm.trans hfill')
  have hmem : name ∈ (a.run t v).uploads.map Prod.fst := by
    rw [hnames]
    exact (globAll_perm d).mem_iff.mpr hname
  obtain ⟨u, hu, rfl⟩ := List.mem_map.mp hmem
  exact ⟨u.2, hu⟩

theorem clean_of_perm (h : (a.run t v).completed = true)
    (hperm : (a.run t v).uploads.Perm
      ((a.job.files t).map fun file => (file.1, Payload.file file.2))) : Clean t v a.job := by
  obtain ⟨d, hfill, -, hbodies⟩ := run_completed h
  obtain ⟨hown, hleft⟩ := fill_spec hfill
  have hfile : ∀ u ∈ (a.run t v).uploads, ∃ file ∈ a.job.files t, u = (file.1, .file file.2) := by
    intro u hu
    obtain ⟨file, hfile, rfl⟩ := List.mem_map.mp (hperm.subset hu)
    exact ⟨file, hfile, rfl⟩
  refine ⟨fun name hname => ?_, fun hresponse => ?_⟩
  · by_contra hforeign
    obtain ⟨hnames, hscratch⟩ := not_or.mp hforeign
    have hkey : name ∈ d.keys := by
      rw [OrderedDict.mem_keys, hleft name hnames, if_neg hscratch]
      exact OrderedDict.mem_keys.mp hname
    obtain ⟨body, hu⟩ := mem_uploads_of_key h hfill hkey
    obtain ⟨file, hmem, heq⟩ := hfile _ hu
    exact hnames (List.mem_map.mpr ⟨file, hmem, (congrArg Prod.fst heq).symm⟩)
  · obtain ⟨file, hmem, hname⟩ := List.mem_map.mp hresponse
    have hkey : response ∈ d.keys := by
      rw [OrderedDict.mem_keys, ← hname, hown file hmem]
      rfl
    obtain ⟨body, hu⟩ := mem_uploads_of_key h hfill hkey
    have hbody := hbodies _ hu
    rw [if_pos rfl] at hbody
    obtain ⟨file, -, heq⟩ := hfile _ hu
    cases hbody.symm.trans (congrArg Prod.snd heq)

theorem perm_of_clean (h : (a.run t v).completed = true) (hclean : Clean t v a.job) :
    (a.run t v).uploads.Perm
      ((a.job.files t).map fun file => (file.1, Payload.file file.2)) := by
  obtain ⟨d, hfill, hnames, hbodies⟩ := run_completed h
  obtain ⟨hown, hleft⟩ := fill_spec hfill
  have hnodup : (a.run t v).uploads.Nodup := by
    refine List.Nodup.of_map Prod.fst ?_
    rw [hnames]
    exact (globAll_perm d).nodup_iff.mpr d.nodup
  have hfiles : ((a.job.files t).map fun file => (file.1, Payload.file file.2)).Nodup := by
    refine List.Nodup.of_map Prod.fst ?_
    rw [List.map_map]
    exact nodup_files t a.job
  have hbody : ∀ file ∈ a.job.files t, ∀ body, (file.1, body) ∈ (a.run t v).uploads →
      body = .file file.2 := by
    intro file hfile body hu
    have hne : file.1 ≠ response := by
      intro heq
      exact hclean.2 (heq ▸ List.mem_map_of_mem hfile)
    have hget := hbodies _ hu
    rw [if_neg hne, hown file hfile] at hget
    exact (Option.some.inj hget).symm
  refine (List.perm_ext_iff_of_nodup hnodup hfiles).mpr fun u => ⟨fun hu => ?_, fun hu => ?_⟩
  · have hkey : u.1 ∈ d.keys := by
      rw [← (globAll_perm d).mem_iff, ← hnames]
      exact List.mem_map_of_mem hu
    have hname : u.1 ∈ (a.job.files t).map Prod.fst := by
      by_contra hforeign
      have hget := OrderedDict.mem_keys.mp hkey
      rw [hleft _ hforeign] at hget
      split at hget
      · cases hget
      · rename_i hscratch
        exact (hclean.1 _ (OrderedDict.mem_keys.mpr hget)).elim hforeign hscratch
    obtain ⟨file, hfile, hfst⟩ := List.mem_map.mp hname
    have hu' : (file.1, u.2) ∈ (a.run t v).uploads := by rw [hfst]; exact hu
    exact List.mem_map.mpr ⟨file, hfile, Prod.ext hfst (hbody file hfile u.2 hu').symm⟩
  · obtain ⟨file, hfile, rfl⟩ := List.mem_map.mp hu
    have hkey : file.1 ∈ d.keys := by
      rw [OrderedDict.mem_keys, hown file hfile]
      rfl
    obtain ⟨body, hu⟩ := mem_uploads_of_key h hfill hkey
    rwa [hbody file hfile body hu] at hu

theorem isolated_iff (t : Tools) (history : List Attempt) :
    (∀ s ∈ starts t .empty history, Exact t s.1 s.2) ↔
      ∀ s ∈ starts t .empty history, (s.2.run t s.1).completed = true → Clean t s.1 s.2.job := by
  refine forall₂_congr fun s _ => ?_
  exact forall_congr' fun h => ⟨clean_of_perm h, perm_of_clean h⟩

theorem run_completed_of_ok (hok : ∀ i, a.ok i = true) (hfill : fill t a.job v = some d) :
    (a.run t v).completed = true := by
  have hloop : (uploadAll a.ok 0 (globAll d) d).completed = true :=
    uploadAll_completed hok fun f hf _ => OrderedDict.mem_keys.mp ((globAll_perm d).subset hf)
  simp [Attempt.run, hfill, hloop]

theorem run_refused (hok : a.ok 0 = false) (hfill : fill t a.job v = some d) (hne : d.keys ≠ []) :
    response ∈ (a.run t v).tmpup.keys := by
  have hglob : globAll d ≠ [] := by
    intro hnil
    exact hne (List.nil_perm.mp (hnil ▸ globAll_perm d))
  obtain ⟨hfailed, hleft⟩ := uploadAll_refused (d := d) hok hglob
  simpa [Attempt.run, hfill, hfailed] using hleft

def kernelDir : OrderedDict PortableName Bytes :=
  ⟨[(⟨"vmlinux".toList, by decide, by decide⟩, [1])], by decide⟩

def clientDir : OrderedDict PortableName Bytes :=
  ⟨[(⟨"test-client".toList, by decide, by decide⟩, [2])], by decide⟩

def failedThenRetried : List Attempt :=
  [⟨.dir kernelDir, fun _ => false⟩, ⟨.dir clientDir, fun _ => true⟩]

def trivialTools : Tools where
  shasum _ _ := []
  tar _ b := b
  split b := [(.aa, b)]
  nodup := by simp

theorem not_isolated_failedThenRetried :
    ¬∀ s ∈ starts trivialTools .empty failedThenRetried, Exact trivialTools s.1 s.2 := by
  intro h
  let first : Attempt := ⟨.dir kernelDir, fun _ => false⟩
  let second : Attempt := ⟨.dir clientDir, fun _ => true⟩
  have hexact := h ((first.run trivialTools .empty).tmpup, second) (.tail _ (.head _))
  have hcompleted : (second.run trivialTools (first.run trivialTools .empty).tmpup).completed =
      true := run_completed_of_ok (fun _ => rfl) rfl
  have hleft : response ∈ (first.run trivialTools .empty).tmpup.keys :=
    run_refused rfl rfl (by decide)
  have hclean := (clean_of_perm hcompleted (hexact hcompleted)).1 response hleft
  revert hclean
  decide

end Runs

end VSwarm.Resources
