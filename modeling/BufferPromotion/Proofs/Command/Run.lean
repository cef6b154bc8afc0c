import BufferPromotion.Command.Directory
import BufferPromotion.Proofs.Tile.Limit

/-! # What a run of the command writes

A shell can be any set of actions on any state, so what a run does with its shell is told by the
state that it leaves: a run that opens no output leaves the state as it is once the diagnostics have
been shown, and any other run leaves the state of writing one text. The main statement
(`run_writes_only_output`) says which of the two a run does, and that it exits with zero if and only
if there is an output and the output could be written. In a directory that is held in memory this
decides what becomes of every file.
-/

set_option autoImplicit false

namespace BufferPromotion

/-! ## Actions on a state -/

/-- What an action gives in a state, and the state that it leaves. -/
def performed {σ α : Type} (action : StateM σ α) (state : σ) : α × σ := Id.run (action.run state)

theorem performed_bind {σ α β : Type} (first : StateM σ α) (next : α → StateM σ β) (state : σ) :
    performed (first >>= next) state =
      performed (next (performed first state).1) (performed first state).2 := rfl

/-- How a run ends that has tried to write its output. -/
def Exit.ofWrite : Except CommandError Unit → Exit
  | .ok _ => .success
  | .error error => .failure error

section Run

variable {σ : Type} {shell : Shell (StateM σ)} {arguments : Arguments} {source : String}
  {start opened : σ}

/-- The options are fine, and the listing has an output under them. -/
def Arguments.Yields (arguments : Arguments) (source output : String) : Prop :=
  arguments.options.check = .ok () ∧ (compile source arguments.options).value = some output

theorem Arguments.produce_eq_ok_iff {output : String} :
    (arguments.produce source).result = .ok output ↔ arguments.Yields source output := by
  unfold Arguments.produce Arguments.Yields
  cases arguments.options.check with
  | error error => exact ⟨nofun, fun h => nomatch h.1⟩
  | ok _ =>
      dsimp only
      cases (compile source arguments.options).value with
      | none => exact ⟨nofun, fun h => nomatch h.2⟩
      | some found => simp

/-- A run whose input can be read shows the diagnostics, and then writes the output if there is
one. -/
theorem performed_run
    (hread : performed (shell.read arguments.inputStream) start = (.ok source, opened)) :
    performed (arguments.run shell) start =
      performed (match (arguments.produce source).result with
        | .error error => pure (.failure error)
        | .ok output => shell.deliver arguments.outputStream output)
        (performed (shell.report (arguments.produce source).diagnostics) opened).2 := by
  unfold Arguments.run
  rw [performed_bind, hread]
  exact performed_bind _ _ _

theorem performed_deliver (output : Stream) (text : String) (state : σ) :
    performed (shell.deliver output text) state =
      (.ofWrite (performed (shell.write output text) state).1,
        (performed (shell.write output text) state).2) := by
  unfold Shell.deliver
  rw [performed_bind]
  cases (performed (shell.write output text) state).1 <;> rfl

theorem Exit.status_ofWrite_eq_zero_iff {written : Except CommandError Unit} :
    (ofWrite written).status = 0 ↔ written = .ok () := by
  cases written with
  | ok _ => exact ⟨fun _ => rfl, fun _ => rfl⟩
  | error error => exact ⟨fun h => absurd h (show ¬ (1 : UInt32) = 0 by decide), nofun⟩

section Output

variable (hread : performed (shell.read arguments.inputStream) start = (.ok source, opened))

include hread

/-- A run with an output is over once the output has been written. -/
theorem performed_run_of_yields {output : String} (h : arguments.Yields source output) :
    let written := performed (shell.write arguments.outputStream output)
      (performed (shell.report (arguments.produce source).diagnostics) opened).2
    performed (arguments.run shell) start = (.ofWrite written.1, written.2) := by
  rw [performed_run hread, Arguments.produce_eq_ok_iff.mpr h]
  exact performed_deliver _ _ _

/-- A run without an output is over once the diagnostics have been shown. -/
theorem performed_run_of_not_yields (h : ∀ output, ¬ arguments.Yields source output) :
    ∃ error, performed (arguments.run shell) start =
      (.failure error,
        (performed (shell.report (arguments.produce source).diagnostics) opened).2) := by
  rw [performed_run hread]
  cases hresult : (arguments.produce source).result with
  | error error => exact ⟨error, rfl⟩
  | ok output => exact absurd (Arguments.produce_eq_ok_iff.mp hresult) (h output)

theorem status_run_eq_zero_iff :
    let shown := (performed (shell.report (arguments.produce source).diagnostics) opened).2
    (performed (arguments.run shell) start).1.status = 0 ↔
      ∃ output, arguments.Yields source output ∧
        (performed (shell.write arguments.outputStream output) shown).1 = .ok () := by
  intro shown
  by_cases hyields : ∃ output, arguments.Yields source output
  · obtain ⟨output, hyields⟩ := hyields
    rw [performed_run_of_yields hread hyields, Exit.status_ofWrite_eq_zero_iff]
    refine ⟨fun hwritten => ⟨output, hyields, hwritten⟩, ?_⟩
    rintro ⟨other, hother, hwritten⟩
    -- there is only one output
    have hsame : other = output := Option.some.inj (hother.2.symm.trans hyields.2)
    rwa [hsame] at hwritten
  · rw [not_exists] at hyields
    obtain ⟨error, hrun⟩ := performed_run_of_not_yields hread hyields
    rw [hrun]
    refine iff_of_false (show ¬ (1 : UInt32) = 0 by decide) ?_
    rintro ⟨output, houtput, -⟩
    exact hyields output houtput

end Output

end Run

/-! ## Options -/

/-- What is chosen is what was given, or the standard where nothing was given. -/
def Chosen {α : Type} (given : Option α) (standard chosen : α) : Prop :=
  given = some chosen ∨ given = none ∧ chosen = standard

theorem chosen_iff {α : Type} {given : Option α} {standard chosen : α} :
    Chosen given standard chosen ↔ chosen = given.getD standard := by
  cases given with
  | none => simp [Chosen]
  | some value => simp [Chosen, eq_comm]

/-- Options are those that arguments ask for, and the standard ones where the arguments say
nothing. -/
structure Arguments.AsksFor (arguments : Arguments) (options : Options) : Prop where
  format : Chosen arguments.emit Options.standard.format options.format
  target : Chosen arguments.target Options.standard.settings.target options.settings.target
  block : Chosen arguments.block Options.standard.settings.launch.block
    options.settings.launch.block
  filter : Chosen arguments.filter Options.standard.settings.launch.filter
    options.settings.launch.filter
  border : Chosen (if arguments.zeroFill then some .zero else .none)
    Options.standard.settings.border options.settings.border
  /-- There is no argument for this. -/
  upgraded : options.upgraded = Options.standard.upgraded

theorem Arguments.asksFor_options (arguments : Arguments) :
    arguments.AsksFor arguments.options where
  format := chosen_iff.mpr rfl
  target := chosen_iff.mpr rfl
  block := chosen_iff.mpr rfl
  filter := chosen_iff.mpr rfl
  border := by
    unfold options
    cases arguments.zeroFill with
    | false => exact Or.inr ⟨rfl, rfl⟩
    | true => exact Or.inl rfl
  upgraded := rfl

theorem Arguments.asksFor_iff {arguments : Arguments} {options : Options} :
    arguments.AsksFor options ↔ options = arguments.options := by
  refine ⟨fun h => ?_, fun h => h ▸ arguments.asksFor_options⟩
  obtain ⟨format, ⟨target, ⟨block, filter⟩, border⟩, upgraded⟩ := options
  -- nothing is left open in the options that are asked for
  have hsame := arguments.asksFor_options
  obtain rfl := (chosen_iff.mp h.format).trans (chosen_iff.mp hsame.format).symm
  obtain rfl := (chosen_iff.mp h.target).trans (chosen_iff.mp hsame.target).symm
  obtain rfl := (chosen_iff.mp h.block).trans (chosen_iff.mp hsame.block).symm
  obtain rfl := (chosen_iff.mp h.filter).trans (chosen_iff.mp hsame.filter).symm
  obtain rfl := (chosen_iff.mp h.border).trans (chosen_iff.mp hsame.border).symm
  obtain rfl := h.upgraded.trans hsame.upgraded.symm
  rfl

theorem Size.hasZero_eq_false_iff {size : Size} :
    size.hasZero = false ↔ 1 ≤ size.x ∧ 1 ≤ size.y := by
  unfold hasZero
  rw [Bool.or_eq_false_iff, beq_eq_false_iff_ne, beq_eq_false_iff_ne]
  simp only [UInt32.le_iff_toNat_le, ne_eq, ← UInt32.toNat_inj, UInt32.toNat_one, UInt32.toNat_zero,
    Nat.one_le_iff_ne_zero]

/-- Options are rejected for a block without pixels, for a filter without pixels, or for a tile that
is too large, and for nothing else. -/
theorem Options.check_eq_ok_iff {options : Options} :
    options.check = .ok () ↔
      (1 ≤ options.settings.launch.block.x ∧ 1 ≤ options.settings.launch.block.y) ∧
      (1 ≤ options.settings.launch.filter.x ∧ 1 ≤ options.settings.launch.filter.y) ∧
      options.settings.launch.tileWidth * options.settings.launch.tileHeight ≤
        elementLimit.toNat := by
  unfold check
  simp only [← Size.hasZero_eq_false_iff]
  cases hblock : options.settings.launch.block.hasZero with
  | true => simp
  | false =>
      obtain ⟨hx, hy⟩ := Size.hasZero_eq_false_iff.mp hblock
      rw [← TileGeometry.isSome_ofLaunch?_iff hx hy]
      cases options.settings.launch.filter.hasZero <;>
        cases TileGeometry.ofLaunch? options.settings.launch <;> simp

/-! ## A directory in memory -/

namespace Directory

variable {directory : Directory}

theorem content?_store (directory : Directory) (name content other : String) :
    (directory.store name content).content? other =
      if other = name then some content else directory.content? other := by
  unfold store content?
  dsimp only
  rw [List.lookup_cons]
  by_cases hname : other = name
  · rw [if_pos hname, hname, beq_self_eq_true]
  · rw [if_neg hname, beq_false_of_ne hname]
    dsimp only
    induction directory.files with
    | nil => rfl
    | cons file files ih =>
        by_cases hfile : file.1 = name
        · rw [List.filter_cons_of_neg (by simp [hfile]), ih, List.lookup_cons, hfile,
            beq_false_of_ne hname]
        · rw [List.filter_cons_of_pos (by simp [hfile]), List.lookup_cons, List.lookup_cons, ih]

/-- A path that can be written leads to a name in the working directory. -/
def Leads (directory : Directory) (path name : String) : Prop :=
  (∃ content, (Path.ofText path >>= directory.placeToWrite) = .ok (.file name content)) ∨
    (Path.ofText path >>= directory.placeToWrite) = .ok (.vacant name true)

theorem writeFile_of_leads {path name : String} (h : directory.Leads path name) (text : String) :
    directory.writeFile path text = .ok (directory.store name text) := by
  unfold writeFile
  rcases h with ⟨content, h⟩ | h <;> rw [h]

theorem performed_read (stream : Stream) :
    performed (shell.read stream) directory = (directory.read stream, directory) := rfl

theorem performed_write {stream : Stream} {text : String} {after : Directory}
    (h : directory.write stream text = .ok after) :
    performed (shell.write stream text) directory = (.ok (), after) := by
  unfold shell
  dsimp only
  -- the directory is looked at first
  rw [performed_bind, show performed get directory = (directory, directory) from rfl]
  dsimp only
  rw [h]
  rfl

end Directory

/-- **The command writes on success only.** Whatever the arguments are and however streams are read
and written, a run that has read its input exits with zero if and only if the options are accepted,
the listing has an output under them, and this output could be written. The options are those that
the arguments ask for, with the standard ones in place of absent arguments, and they are accepted if
and only if the block and the filter have pixels and the tile is not too large. A run with an output
writes exactly this output, once, and any other run opens nothing. So in a directory in memory a run
without an output leaves everything as it was, and a run with one replaces the content of the file
that it writes, or adds to the standard output. -/
theorem run_writes_only_output (arguments : Arguments) (source : String) :
    let launch := arguments.options.settings.launch
    (∀ options, arguments.AsksFor options ↔ options = arguments.options) ∧
    (arguments.options.check = .ok () ↔
        (1 ≤ launch.block.x ∧ 1 ≤ launch.block.y) ∧ (1 ≤ launch.filter.x ∧ 1 ≤ launch.filter.y) ∧
          launch.tileWidth * launch.tileHeight ≤ 2 ^ 31 - 1) ∧
    (∀ (σ : Type) (shell : Shell (StateM σ)) (start opened : σ),
      performed (shell.read arguments.inputStream) start = (.ok source, opened) →
      let shown := (performed (shell.report (arguments.produce source).diagnostics) opened).2
      let ended := performed (arguments.run shell) start
      (ended.1.status = 0 ↔ ∃ output, arguments.Yields source output ∧
        (performed (shell.write arguments.outputStream output) shown).1 = .ok ()) ∧
      (∀ output, arguments.Yields source output →
        ended.2 = (performed (shell.write arguments.outputStream output) shown).2) ∧
      ((∀ output, ¬ arguments.Yields source output) → ended.2 = shown)) ∧
    ∀ directory : Directory, directory.read arguments.inputStream = .ok source →
      let ended := performed (arguments.run Directory.shell) directory
      ((∀ output, ¬ arguments.Yields source output) → ended.2 = directory) ∧
      ∀ output, arguments.Yields source output →
        (arguments.outputStream = .standard →
          ended = (.success, directory.print output)) ∧
        ∀ path name, arguments.outputStream = .file path → directory.Leads path name →
          ended.1 = .success ∧ ended.2.content? name = some output ∧
            (∀ other, other ≠ name → ended.2.content? other = directory.content? other) ∧
            ended.2.standardOutput = directory.standardOutput := by
  intro launch
  refine ⟨fun options => Arguments.asksFor_iff, Options.check_eq_ok_iff, ?_, ?_⟩
  · intro σ shell start opened hread shown ended
    refine ⟨status_run_eq_zero_iff hread, fun output hyields => ?_, fun hnone => ?_⟩
    · exact congrArg Prod.snd (performed_run_of_yields hread hyields)
    · obtain ⟨error, hrun⟩ := performed_run_of_not_yields hread hnone
      exact congrArg Prod.snd hrun
  · intro directory hinput ended
    have hread : performed (Directory.shell.read arguments.inputStream) directory =
        (.ok source, directory) := by
      rw [Directory.performed_read, hinput]
    -- showing diagnostics leaves the directory as it is
    have hwritten : ∀ output, arguments.Yields source output → ∀ after,
        directory.write arguments.outputStream output = .ok after → ended = (.success, after) := by
      intro output hyields after hafter
      refine (performed_run_of_yields hread hyields).trans ?_
      show (Exit.ofWrite (performed _ directory).1, (performed _ directory).2) = _
      rw [Directory.performed_write hafter]
      rfl
    refine ⟨fun hnone => ?_, fun output hyields => ⟨fun hstream => ?_, ?_⟩⟩
    · obtain ⟨error, hrun⟩ := performed_run_of_not_yields hread hnone
      exact congrArg Prod.snd hrun
    · exact hwritten output hyields _ (by rw [hstream]; rfl)
    · intro path name hstream hleads
      have hended := hwritten output hyields (directory.store name output)
        (by rw [hstream]; exact Directory.writeFile_of_leads hleads output)
      rw [hended]
      refine ⟨rfl, ?_, fun other hother => ?_, rfl⟩
      · rw [Directory.content?_store, if_pos rfl]
      · rw [Directory.content?_store, if_neg hother]

/-- A warning does not keep a run from replacing the content of its output file, and an error leaves
that file as it was. -/
theorem warned_run_replaces_file :
    let arguments : Arguments :=
      { Arguments.none with emit := some .listing, output := some (.file "out") }
    let directory (listing : String) : Directory := ⟨[("out", "old"), ("in", "kept")], listing, ""⟩
    let ended (listing : String) := performed (arguments.run Directory.shell) (directory listing)
    let warned := "kernel k\nparam %p : Ptr\n"
    let faulty := "kernel k\nparam %p ; Ptr\n"
    (compile warned arguments.options).warnings.length = 1 ∧
      arguments.Yields warned "kernel k\nparam %p : ?\n" ∧
      (ended warned).1 = .success ∧
      (ended warned).2.content? "out" = some "kernel k\nparam %p : ?\n" ∧
      (ended warned).2.content? "in" = some "kept" ∧
      (ended faulty).2 = directory faulty := by
  intro arguments directory ended warned faulty
  have hyields : arguments.Yields warned "kernel k\nparam %p : ?\n" :=
    ⟨Options.check_eq_ok_iff.mpr (by decide), by decide +kernel⟩
  have hleads : (directory warned).Leads "out" "out" := Or.inl ⟨"old", rfl⟩
  obtain ⟨-, -, -, hwarned⟩ := run_writes_only_output arguments warned
  obtain ⟨hsuccess, hcontent, hothers, -⟩ :=
    ((hwarned (directory warned) rfl).2 _ hyields).2 "out" "out" rfl hleads
  -- a listing with an error has no output
  have hnone : (compile faulty arguments.options).value = none := by decide +kernel
  obtain ⟨-, -, -, hfaulty⟩ := run_writes_only_output arguments faulty
  refine ⟨by decide +kernel, hyields, hsuccess, hcontent,
    (hothers "in" (by decide)).trans (by decide +kernel), ?_⟩
  exact (hfaulty (directory faulty) rfl).1 fun output houtput =>
    nomatch hnone.symm.trans houtput.2

end BufferPromotion
