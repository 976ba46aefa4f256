import Mathlib.Data.List.DropRight
import PipelineRunner.Plugin.Builtin
import PipelineRunner.Proofs.PathWalks

/-! The directory that a repository is checked out into. It is called by the end of the address,
which is taken apart in three steps; only then are the names excluded that lead nowhere or upwards,
so it does not matter that they may come about as late as in the last step. Slashes behind the
address and an ending more change nothing. What a checkout starts, it starts in the workspace or in
that directory, which lies directly in the workspace. -/

namespace PipelineRunner.Checkout

open Host

variable {c : Char} {cs ds : List Char} {url name branch : String} {s : Services}
  {params : StepParams}

/-! ### Ends of an address -/

theorem dropTrailing_append (c : Char) (cs : List Char) (n : Nat) :
    dropTrailing c (cs ++ List.replicate n c) = dropTrailing c cs := by
  have dropped : ∀ a ∈ List.replicate n c, (a == c) = true := fun a mem =>
    beq_iff_eq.mpr (List.eq_of_mem_replicate mem)
  rw [dropTrailing, List.reverse_append, List.reverse_replicate,
    List.dropWhile_append_of_pos dropped, dropTrailing]

theorem dropTrailing_eq_self (ends : ¬ [c] <:+ cs) : dropTrailing c cs = cs := by
  rcases List.eq_nil_or_concat cs with rfl | ⟨init, last, rfl⟩
  · rfl
  rw [List.concat_eq_append] at ends ⊢
  have other : last ≠ c := by
    rintro rfl
    exact ends (List.suffix_append _ _)
  exact List.rdropWhile_concat_neg (· == c) init last (by simpa using other)

theorem lastSegment_suffix (cs : List Char) : lastSegment cs <:+ cs :=
  List.rtakeWhile_suffix _ cs

theorem mem_lastSegment (mem : c ∈ lastSegment cs) : c ≠ '/' ∧ c ≠ ':' := by
  simpa using List.mem_rtakeWhile_imp mem

theorem lastSegment_append (cs : List Char) (plain : ∀ c ∈ ds, c ≠ '/' ∧ c ≠ ':') :
    lastSegment (cs ++ ds) = lastSegment cs ++ ds := by
  have kept : ∀ c ∈ ds.reverse, (c != '/' && c != ':') = true := fun c mem => by
    simpa using plain c (List.mem_reverse.mp mem)
  rw [lastSegment, List.reverse_append, List.takeWhile_append_of_pos kept, List.reverse_append,
    List.reverse_reverse, lastSegment]

theorem dropEnding_subset (cs : List Char) : dropEnding cs ⊆ cs := by
  unfold dropEnding
  split
  · exact List.take_subset _ _
  · exact List.Subset.refl _

theorem dropEnding_append (cs : List Char) : dropEnding (cs ++ ending) = cs := by
  have ends : ending.isSuffixOf (cs ++ ending) = true :=
    List.isSuffixOf_iff_suffix.mpr (List.suffix_append _ _)
  rw [dropEnding, if_pos ends]
  simp

theorem dropEnding_eq_self (ends : ¬ ending <:+ cs) : dropEnding cs = cs :=
  if_neg (mt List.isSuffixOf_iff_suffix.mp ends)

theorem directoryName?_eq_some : directoryName? url = some name ↔
    name.toList = dropEnding (lastSegment (dropTrailing '/' url.toList)) ∧
      name ≠ "" ∧ name ≠ "." ∧ name ≠ ".." := by
  simp only [directoryName?, Bool.or_eq_true, decide_eq_true_iff, ne_eq, ← String.toList_inj]
  split
  next excluded =>
    constructor
    · intro told
      cases told
    · rintro ⟨spelled, some, notHere, notAbove⟩
      rw [← spelled] at excluded
      rcases excluded with (nothing | here) | above
      · exact absurd nothing some
      · exact absurd here notHere
      · exact absurd above notAbove
  next allowed =>
    simp only [not_or] at allowed
    rw [Option.some.injEq, ← String.toList_inj, String.toList_ofList]
    constructor
    · rintro same
      rw [← same]
      exact ⟨rfl, allowed.1.1, allowed.1.2, allowed.2⟩
    · exact fun told => told.1.symm

example : directoryName? "https://host/team/...git/" = none := by decide

theorem directoryName?_slashes (url : String) (n : Nat) :
    directoryName? (url ++ String.ofList (List.replicate n '/')) = directoryName? url := by
  simp only [directoryName?, String.toList_append, String.toList_ofList, dropTrailing_append]

theorem directoryName?_ending (slash : ¬ ['/'] <:+ url.toList) (ends : ¬ ending <:+ url.toList) :
    directoryName? (url ++ ".git") = directoryName? url := by
  have kept : dropTrailing '/' (url.toList ++ ending) = url.toList ++ ending := by
    refine dropTrailing_eq_self fun last => ?_
    rcases List.suffix_or_suffix_of_suffix last (List.suffix_append _ _) with within | around
    · exact absurd within (by decide)
    · exact absurd around (by decide)
  have segment : lastSegment (url.toList ++ ending) = lastSegment url.toList ++ ending :=
    lastSegment_append _ (by simp [ending])
  have plain : ¬ ending <:+ lastSegment url.toList := fun suffix =>
    ends (suffix.trans (lastSegment_suffix _))
  have spelled : (url ++ ".git").toList = url.toList ++ ending := String.toList_append
  simp only [directoryName?, spelled, kept, dropTrailing_eq_self slash, segment, dropEnding_append,
    dropEnding_eq_self plain]

theorem plain_of_directoryName (told : directoryName? url = some name) :
    '/' ∉ name.toList ∧ ':' ∉ name.toList := by
  obtain ⟨spelled, -⟩ := directoryName?_eq_some.mp told
  have plain {c : Char} (mem : c ∈ name.toList) : c ≠ '/' ∧ c ≠ ':' := by
    rw [spelled] at mem
    exact mem_lastSegment (dropEnding_subset _ mem)
  exact ⟨fun mem => (plain mem).1 rfl, fun mem => (plain mem).2 rfl⟩

/-- Wherever the workspace is, the directory lies directly in it. -/
theorem liesIn_of_directoryName (told : directoryName? url = some name) (workspace : String) :
    LiesIn (Path.join workspace name) name workspace := by
  obtain ⟨-, some, notHere, notAbove⟩ := directoryName?_eq_some.mp told
  exact join_liesIn (plain_of_directoryName told).1 some notHere notAbove workspace

/-! ### What is started -/

/-- The programs that a checkout starts, each with the directory it is started in and its label. -/
def orders (workspace target url branch : String) : List (String × List String × String) :=
  [(target, ["git", "checkout", branch], "git checkout"),
    (target, ["git", "pull", "origin", branch], "git pull"),
    (workspace, ["git", "clone", "--branch", branch, url, target], "git clone")]

theorem git_eq (directory command : String) (arguments : List String) (workflow : Option String) :
    git s directory command arguments workflow =
      s.run directory ("git" :: command :: arguments) ("git " ++ command) workflow := by
  rfl

theorem checkout_of_noDirectory (url_given : params.get? "url" = some url)
    (branch_given : params.get? "branch" = some branch) (none : directoryName? url = none) :
    checkout s params = .done (.error (noDirectory url)) := by
  simp only [checkout, requiredParam, url_given, branch_given, none]
  rfl

/-- It does not matter to a checkout how any other program is started. -/
theorem checkout_congr (url_given : params.get? "url" = some url)
    (branch_given : params.get? "branch" = some branch) (told : directoryName? url = some name)
    (spawn : String → List String → String → Work (Except Cause Output))
    (same : ∀ o ∈ orders s.workspace (Path.join s.workspace name) url branch,
      spawn o.1 o.2.1 o.2.2 = s.spawn o.1 o.2.1 o.2.2) :
    checkout { s with spawn } params = checkout s params := by
  obtain ⟨branches, pulls, clones, -⟩ : _ ∧ _ ∧ _ ∧ _ := by
    simpa only [orders, List.forall_mem_cons] using same
  have labelled : "git " ++ "checkout" = "git checkout" ∧ "git " ++ "pull" = "git pull" ∧
      "git " ++ "clone" = "git clone" := by decide
  simp only [checkout, requiredParam, url_given, branch_given, told, fetch, git_eq, Services.run,
    labelled, branches, pulls, clones]
  rfl

/-- A checkout never leaves the workspace. If an address yields a directory at all, its name is not
empty, has neither a slash nor a colon and is neither one dot nor two, so it lies directly in the
workspace. Slashes behind an address change nothing, and neither does the ending behind one that
has neither. Without a directory a checkout is refused, for the address that was given; and with
one no other program is started than those for the workspace and that directory. -/
theorem stays_in_workspace (url : String) :
    (∀ name, directoryName? url = some name →
      name ≠ "" ∧ '/' ∉ name.toList ∧ ':' ∉ name.toList ∧ name ≠ "." ∧ name ≠ ".." ∧
        ∀ workspace, LiesIn (Path.join workspace name) name workspace) ∧
      (∀ n, directoryName? (url ++ String.ofList (List.replicate n '/')) = directoryName? url) ∧
      (¬ ['/'] <:+ url.toList → ¬ ".git".toList <:+ url.toList →
        directoryName? (url ++ ".git") = directoryName? url) ∧
      ∀ (s : Services) (params : StepParams) (branch : String), params.get? "url" = some url →
        params.get? "branch" = some branch →
        (directoryName? url = none → checkout s params = .done (.error (noDirectory url))) ∧
        ∀ name, directoryName? url = some name →
          ∀ spawn : String → List String → String → Work (Except Cause Output),
            (∀ o ∈ orders s.workspace (Path.join s.workspace name) url branch,
              spawn o.1 o.2.1 o.2.2 = s.spawn o.1 o.2.1 o.2.2) →
            checkout { s with spawn } params = checkout s params := by
  refine ⟨fun name told => ?_, directoryName?_slashes url, directoryName?_ending,
    fun s params branch url_given branch_given =>
      ⟨checkout_of_noDirectory url_given branch_given,
        fun name told => checkout_congr url_given branch_given told⟩⟩
  obtain ⟨-, some, notHere, notAbove⟩ := directoryName?_eq_some.mp told
  obtain ⟨slash, colon⟩ := plain_of_directoryName told
  exact ⟨some, slash, colon, notHere, notAbove, liesIn_of_directoryName told⟩

/-- The files of a host that has a workspace and nothing in it. -/
def bareFiles : FileTree :=
  ⟨#[⟨.directory 0 [("w", 1)], 0o755, 0⟩, ⟨.directory 0 [], 0o755, 0⟩], 0⟩

/-- Services in that workspace. They refuse programs in some directories, and crash elsewhere. -/
def bareServices (known : List String) : Services where
  containers := ⟨fun _ => .crash "pull", fun _ => .crash "start", fun _ _ => .crash "exec",
    fun _ => .crash "stop"⟩
  workspace := "/w"
  directory := "/"
  spawn directory _ label :=
    if directory ∈ known then .done (.error (.because label)) else .crash "elsewhere"

theorem app_stays_in_workspace :
    directoryName? ("git@host:team/app" ++ "//") = some "app" ∧
      directoryName? ("git@host:team/app" ++ ".git") = some "app" ∧
      bareFiles.spot 1 (Text.Bytes.ofText (Path.join "/w" "app")) false = .ok ⟨1, "app", none⟩ ∧
      checkout (bareServices ["/w", "/w/app"]) [("url", "git@host:team/app"), ("branch", "b")] =
        checkout (bareServices ["/", "/w", "/w/app"])
          [("url", "git@host:team/app"), ("branch", "b")] := by
  have told : directoryName? "git@host:team/app" = some "app" := by decide
  obtain ⟨names, slashes, ending, checkouts⟩ := stays_in_workspace "git@host:team/app"
  obtain ⟨-, -, -, -, -, lies⟩ := names "app" told
  refine ⟨(slashes 2).trans told, (ending (by decide) (by decide)).trans told, ?_, ?_⟩
  · have found : bareFiles.findDirectory 0 (Text.Bytes.ofText "/w") = .ok 1 := by decide +kernel
    have absolute : Path.isAbsolute (Text.Bytes.ofText "/w") = true := by decide +kernel
    refine ((lies "/w").spot_eq bareFiles 0 1 1 false found (.inr absolute) (by simp)).trans ?_
    decide +kernel
  · have joined : Path.join "/w" "app" = "/w/app" := by decide +kernel
    refine (checkouts (bareServices ["/", "/w", "/w/app"]) _ "b" rfl rfl).2 "app" told
      (bareServices ["/w", "/w/app"]).spawn ?_
    simp [orders, bareServices, joined]

end PipelineRunner.Checkout
