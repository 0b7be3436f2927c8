import VSwarm.Defs.Analysis.ScanResults

namespace VSwarm.Analysis

open VSwarm.Lib

def rerunScript (reports : List Report) : List Char := reports.flatMap Report.rerun

def isCommandLine (line : List Char) : Bool := line.take 14 = "command line: ".toList

def command (line : List Char) : List Char := strip (line.drop 14)

def lastCommand (log : List Char) : List Char :=
  (((Text.lines (Text.universalNewlines log)).filter isCommandLine).getLast?.map command).getD []

def rerunLine (cmd filename : List Char) : List Char :=
  (" sudo " ++ String.ofList cmd ++ " > " ++ String.ofList filename ++ " 2>&1 & \n").toList

section Logs

variable (d : ResultsDir)

def logText? : Results → Option (List Char)
  | .file ⟨_, .text log⟩ => some log
  | _ => none

def ResultsDir.text? (s : FileName) : Option (List Char) :=
  (d.root.find (d.place ++ [s, gem5Log])).bind logText?

def ResultsDir.failed? (s : FileName) : Option (List Char) :=
  (d.text? s).filter fun log => !Text.contains simulationDone log

theorem ResultsDir.log?_eq (s : FileName) : d.log? s = (d.text? s).map checkLog := by
  rw [log?, text?]
  cases d.root.find (d.place ++ [s, gem5Log]) with
  | none => rfl
  | some log =>
    cases log with
    | dir names nodup plain child => rfl
    | file file =>
      obtain ⟨mtime, content⟩ := file
      cases content <;> rfl

end Logs

section Command

variable {c : Checked} {ls : List (List Char)} {line log : List Char}

theorem cmd_countEnd_readCmd (c : Checked) (line : List Char) :
    ((c.readCmd line).countEnd line).cmd = (c.readCmd line).cmd := by
  rw [Checked.countEnd]
  split <;> rfl

theorem cmd_readCmd (c : Checked) (line : List Char) :
    (c.readCmd line).cmd = if isCommandLine line then command line else c.cmd := by
  simp only [Checked.readCmd, isCommandLine, decide_eq_true_eq]
  split <;> rfl

theorem cmd_scan (h : ∀ line ∈ ls, ¬simulationDone <:+: line) :
    (scan c ls).cmd = ((ls.filter isCommandLine).getLast?.map command).getD c.cmd := by
  induction ls generalizing c with
  | nil => rfl
  | cons line ls ih =>
    obtain ⟨hline, hls⟩ := List.forall_mem_cons.mp h
    rw [scan, if_neg (by simpa [Text.contains] using hline), ih hls, cmd_countEnd_readCmd,
      cmd_readCmd, List.filter_cons]
    split
    · rw [List.getLast?_cons]
      cases (ls.filter isCommandLine).getLast? <;> rfl
    · rfl

theorem cmd_checkLog (h : ¬simulationDone <:+: log) : (checkLog log).cmd = lastCommand log := by
  apply cmd_scan
  intro line hline hdone
  apply h
  rw [← Text.infix_universalNewlines (by decide) (by decide) (by decide),
    ← Text.infix_lines (by decide) (by decide)]
  exact ⟨line, hline, hdone⟩

end Command

section Newlines

variable {r cs line : List Char} {c : Checked} {ls : List (List Char)}

theorem dropLast_subset_of_within (h : r <:+: cs) : r.dropLast ⊆ cs.dropLast := by
  obtain ⟨a, b, rfl⟩ := h
  cases r using List.reverseRecOn with
  | nil => simp
  | append_singleton r x =>
    intro y hy
    rw [List.dropLast_concat] at hy
    rw [List.append_assoc, List.append_assoc, List.dropLast_append_of_ne_nil (by simp),
      List.dropLast_append_of_ne_nil (by simp)]
    simp [hy]

theorem strip_within (cs : List Char) : strip cs <:+: cs :=
  (List.rdropWhile_prefix isSpace _).isInfix.trans (List.dropWhile_suffix isSpace).isInfix

theorem newline_notMem_strip (h : '\n' ∉ cs.dropLast) : '\n' ∉ strip cs := by
  intro hmem
  have hne : strip cs ≠ [] := List.ne_nil_of_mem hmem
  have hlast : ¬isSpace ((strip cs).getLast hne) = true :=
    List.rdropWhile_last_not isSpace (cs.dropWhile isSpace) hne
  rw [← List.dropLast_append_getLast hne, List.mem_append, List.mem_singleton] at hmem
  rcases hmem with hmem | hmem
  · exact h (dropLast_subset_of_within (strip_within cs) hmem)
  · rw [← hmem] at hlast
    exact hlast rfl

theorem newline_notMem_cmd (hc : '\n' ∉ c.cmd) (hls : ∀ line ∈ ls, '\n' ∉ line.dropLast) :
    '\n' ∉ (scan c ls).cmd := by
  have hread : ∀ c : Checked, '\n' ∉ c.cmd → ∀ line : List Char, '\n' ∉ line.dropLast →
      '\n' ∉ (c.readCmd line).cmd := by
    intro c hc line hline
    rw [cmd_readCmd]
    split
    · apply newline_notMem_strip
      exact fun hmem => hline (dropLast_subset_of_within (List.drop_suffix 14 line).isInfix hmem)
    · exact hc
  induction ls generalizing c with
  | nil => exact hc
  | cons line ls ih =>
    obtain ⟨hline, hls⟩ := List.forall_mem_cons.mp hls
    rw [scan]
    split
    · exact hread c hc line hline
    · apply ih _ hls
      rw [cmd_countEnd_readCmd]
      exact hread c hc line hline

theorem newline_notMem_cmd_checkLog (log : List Char) : '\n' ∉ (checkLog log).cmd := by
  rw [checkLog]
  apply newline_notMem_cmd
  · simp
  · intro line hline
    exact Text.newline_notMem_dropLast hline

end Newlines

section Script

variable {reports : List Report} {path : List Char}

theorem rerun_eq (c : Checked) (filename : List Char) :
    c.rerun (String.ofList filename) =
      (if c.success then "# ".toList else []) ++ rerunLine c.cmd filename := by
  cases hc : c.success with
  | true => simp [Checked.rerun, rerunLine, hc]
  | false => simp [Checked.rerun, rerunLine, hc]

theorem rerunLine_eq {cmd filename : List Char} (hcmd : '\n' ∉ cmd) (hfile : '\n' ∉ filename) :
    ∃ line, '\n' ∉ line ∧ rerunLine cmd filename = line ++ ['\n'] := by
  refine ⟨(" sudo " ++ String.ofList cmd ++ " > " ++ String.ofList filename ++ " 2>&1 & ").toList,
    ?_, ?_⟩
  · simp [hcmd, hfile]
  · simp [rerunLine]

theorem lines_rerunScript (hpath : '\n' ∉ path) {entries : List (FileName × Checked)}
    (h : ∀ e ∈ entries, '\n' ∉ e.1 ∧ '\n' ∉ e.2.cmd) :
    Text.lines (rerunScript (entries.map (report path))) =
      entries.map fun e => (report path e).rerun := by
  induction entries with
  | nil => rfl
  | cons e entries ih =>
    obtain ⟨⟨hname, hcmd⟩, htail⟩ := List.forall_mem_cons.mp h
    have hlog : '\n' ∉ gem5Log := by decide
    have hfile : '\n' ∉ logName path e.1 := by simp [logName, hpath, hname, hlog]
    have hcomment : '\n' ∉ if e.2.success then "# ".toList else [] := by
      cases e.2.success <;> decide
    obtain ⟨line, hline, heq⟩ := rerunLine_eq hcmd hfile
    have hall : '\n' ∉ (if e.2.success then "# ".toList else []) ++ line := by
      rw [List.mem_append, not_or]
      exact ⟨hcomment, hline⟩
    have hrerun : (report path e).rerun =
        ((if e.2.success then "# ".toList else []) ++ line) ++ ['\n'] := by
      rw [List.append_assoc, ← heq, ← rerun_eq]
      rfl
    rw [rerunScript, List.map_cons, List.flatMap_cons, hrerun, List.append_assoc,
      List.singleton_append, Text.lines_append_newline hall, ← rerunScript, ih htail,
      List.map_cons, hrerun]

theorem ResultsDir.lines_rerunScript_active (d : ResultsDir) (hpath : '\n' ∉ d.path)
    (hnames : ∀ s ∈ d.names, '\n' ∉ s)
    (hlogs : ∀ s ∈ d.names, d.isSubdir s → d.Readable s) :
    ∃ reports, checkSimulations d.root d.cwd (d.path ++ ['/']) = some reports ∧
      (Text.lines (rerunScript reports)).filter (fun line => !commented line) =
        d.subdirs.filterMap fun s => (d.failed? s).map fun log =>
          rerunLine (lastCommand log) (logName (d.path ++ ['/']) s) := by
  have hslash : d.path ++ ['/'] ∈ d.spellings := List.mem_cons_of_mem _ List.mem_cons_self
  refine ⟨_, (d.checkSimulations_iff hslash).mpr ⟨fun s hs _ => hlogs s hs, ?_⟩, ?_⟩
  · intro s hs hsub _
    rwa [d.isDir_slash hs]
  · have hentries : ∀ e ∈ d.subdirs.filterMap fun s => (d.log? s).map (s, ·),
        '\n' ∉ e.1 ∧ '\n' ∉ e.2.cmd := by
      intro e he
      obtain ⟨s, hs, hlog⟩ := List.mem_filterMap.mp he
      obtain ⟨c, hc, rfl⟩ := Option.map_eq_some_iff.mp hlog
      rw [d.log?_eq] at hc
      obtain ⟨log, -, rfl⟩ := Option.map_eq_some_iff.mp hc
      exact ⟨hnames s (d.mem_subdirs.mp hs).1, newline_notMem_cmd_checkLog log⟩
    rw [lines_rerunScript (by simpa using hpath) hentries, List.map_filterMap,
      List.filter_filterMap]
    refine List.filterMap_congr fun s _ => ?_
    rw [d.log?_eq, failed?]
    cases d.text? s with
    | none => rfl
    | some log =>
      have hdone : (checkLog log).success = Text.contains simulationDone log := by
        rw [Bool.eq_iff_iff, checkLog_success, Text.contains, decide_eq_true_iff]
      have hrerun : (report (d.path ++ ['/']) (s, checkLog log)).rerun =
          (checkLog log).rerun (String.ofList (logName (d.path ++ ['/']) s)) := rfl
      simp only [Option.map_some, Option.filter_some, hrerun, commented_rerun, hdone]
      cases hcontains : Text.contains simulationDone log with
      | true => rfl
      | false =>
        have hfailed : ¬simulationDone <:+: log := of_decide_eq_false hcontains
        rw [rerun_eq, hdone, hcontains, cmd_checkLog hfailed]
        rfl

theorem isEntryName_gem5Log : isEntryName gem5Log = true := by decide

def stopped : ResultsDir where
  root := directory "wkdir".toList (by decide) (.dir ["fibonacci-go".toList, "aes-go".toList]
    (by decide) (by decide) fun s => directory gem5Log isEntryName_gem5Log (.file ⟨0, .text
      (if s = "aes-go".toList then "command line: gem5.opt a.py\nSimulation done\n".toList
        else "command line: gem5.opt f.py\r\n".toList)⟩))
  cwd := []
  path := "wkdir".toList
  nonempty := by decide
  bare := by decide
  place := ["wkdir".toList]
  resolved := by decide
  names := ["fibonacci-go".toList, "aes-go".toList]
  listed := rfl

theorem lines_rerunScript_active_stopped :
    ∃ reports, checkSimulations stopped.root stopped.cwd "wkdir/".toList = some reports ∧
      (Text.lines (rerunScript reports)).filter (fun line => !commented line) =
        [" sudo gem5.opt f.py > wkdir//fibonacci-go/gem5.log 2>&1 & \n".toList] := by
  have hsubdirs : stopped.subdirs = ["aes-go".toList, "fibonacci-go".toList] :=
    Listing.sort_of_perm (List.Perm.swap _ _ []) (by decide)
  have hlogs : ∀ s ∈ stopped.names, stopped.isSubdir s → stopped.Readable s := by
    intro s hs _ log hlog
    rcases List.mem_pair.mp hs with rfl | rfl
    · cases hlog
      rfl
    · cases hlog
      rfl
  obtain ⟨reports, hreports, hlines⟩ :=
    stopped.lines_rerunScript_active (by decide) (by decide) hlogs
  refine ⟨reports, hreports, hlines.trans ?_⟩
  rw [hsubdirs]
  decide

end Script

end VSwarm.Analysis
