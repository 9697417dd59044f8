import WordMachine.Cli.Arguments
import WordMachine.Fault
import WordMachine.Proofs.RangeText

/-!
What holds of all settings that can be read. An invariant that no option and no argument breaks
holds of the settings of every command line, however it is written. Ranges have one: they begin at a
natural number.
-/
namespace WordMachine

namespace Cli

namespace Grammar

variable {σ : Type} {g : Grammar σ} {P : σ → Prop} {rule : OptionRule σ} {argument name : String}
  {text : List Char} {p q : Progress σ}

/-- Neither an option nor an argument breaks what holds of the settings. -/
structure Keeps (g : Grammar σ) (P : σ → Prop) : Prop where
  flag {rule : OptionRule σ} {set : σ → σ} {s : σ} : rule ∈ g.options → rule.action = .flag set →
    P s → P (set s)
  value {rule : OptionRule σ} {set : Option String → σ → Except String σ} {v : Option String}
    {s t : σ} : rule ∈ g.options → rule.action = .value set → P s → set v s = .ok t → P t
  positional {values : List String} {s t : σ} : P s → g.positional.set values s = .ok t → P t

structure Cluster.Knows (g : Grammar σ) (c : Cluster σ) : Prop where
  complete : ∀ e ∈ c.complete, e.1 ∈ g.options
  unfinished : ∀ rule ∈ c.open?, rule ∈ g.options

theorem mem_of_names (h : (name, rule) ∈ g.names) : rule ∈ g.options := by
  obtain ⟨rule', hrule, hnames⟩ := List.mem_flatMap.mp h
  obtain ⟨name', -, heq⟩ := List.mem_map.mp hnames
  cases heq
  exact hrule

theorem mem_of_rule? (h : g.rule? name = some rule) : rule ∈ g.options := by
  obtain ⟨⟨full, rule'⟩, hfind, rfl⟩ := Option.map_eq_some_iff.mp h
  exact mem_of_names (List.mem_of_find?_eq_some hfind)

theorem mem_of_candidates {found : Found σ} (h : found ∈ g.candidates text) :
    found.rule ∈ g.options := by
  unfold candidates at h
  split at h
  · obtain ⟨⟨full, rule⟩, hnames, rfl⟩ := List.mem_map.mp h
    exact mem_of_names (List.mem_filter.mp hnames).1
  · obtain ⟨⟨full, rule⟩, hnames, hfound⟩ := List.mem_filterMap.mp h
    have hrule := mem_of_names hnames
    dsimp only at hfound
    split at hfound
    · cases hfound
      exact hrule
    · split at hfound
      · cases hfound
        exact hrule
      · cases hfound

theorem mem_of_mark {found : Found σ} (h : g.mark argument = .ok (.option found)) :
    found.rule ∈ g.options := by
  unfold mark at h
  dsimp only at h
  split at h
  · split at h
    next rule hrule =>
      cases h
      exact mem_of_rule? hrule
    next =>
      split at h
      next value rule hvalue hrule =>
        cases h
        exact mem_of_rule? hrule
      next =>
        split at h
        next found' hcandidates =>
          cases h
          exact mem_of_candidates (by rw [hcandidates]; exact List.mem_singleton.mpr rfl)
        next => split at h <;> cases h
        next => cases h
  · cases h

theorem mem_of_markAll {arguments : List String} {marks : List (Mark σ × String)}
    (h : g.markAll arguments = .ok marks) :
    ∀ m ∈ marks, ∀ found, m.1 = .option found → found.rule ∈ g.options := by
  induction arguments generalizing marks with
  | nil =>
    cases h
    simp
  | cons first rest ih =>
    rw [markAll] at h
    split at h
    · cases h
      simp
    · obtain ⟨mark, hmark, h⟩ := exists_of_bind_ok h
      obtain ⟨more, hmore, h⟩ := exists_of_bind_ok h
      cases h
      refine List.forall_mem_cons.mpr ⟨fun found hfound => ?_, ih hmore⟩
      obtain rfl : mark = .option found := hfound
      exact mem_of_mark hmark

theorem Cluster.knows_bare (h : rule ∈ g.options) : (Cluster.bare rule).Knows g := by
  unfold Cluster.bare
  split
  · exact ⟨by simp, by simpa using h⟩
  · exact ⟨by simpa using h, by simp⟩

theorem Cluster.Knows.cons {c : Cluster σ} (hc : c.Knows g) (h : rule ∈ g.options) :
    (Cluster.cons rule c).Knows g :=
  ⟨List.forall_mem_cons.mpr ⟨h, hc.complete⟩, hc.unfinished⟩

theorem knows_of_cluster {long : Bool} {c : Cluster σ} (hrule : rule ∈ g.options)
    (h : g.cluster rule long text = .ok c) : c.Knows g := by
  induction text generalizing rule long c with
  | nil =>
    rw [cluster] at h
    split at h
    · cases h
      exact ⟨by simpa using hrule, by simp⟩
    · cases h
  | cons letter rest ih =>
    rw [cluster] at h
    split at h
    · cases h
      exact ⟨by simpa using hrule, by simp⟩
    dsimp only at h
    split at h
    · cases h
    split at h
    · cases h
    next next hnext =>
      have hmem := mem_of_rule? hnext
      split at h
      · cases h
        exact (Cluster.knows_bare hmem).cons hrule
      · obtain ⟨more, hmore, h⟩ := exists_of_bind_ok h
        cases h
        exact (ih hmem hmore).cons hrule

theorem knows_of_clusterOf {found : Found σ} {c : Cluster σ} (hfound : found.rule ∈ g.options)
    (h : g.clusterOf found = .ok c) : c.Knows g := by
  unfold clusterOf at h
  split at h
  · exact knows_of_cluster hfound h
  · cases h
    exact Cluster.knows_bare hfound

theorem of_mapError_ok {ε δ α : Type} {f : ε → δ} {x : Except ε α} {a : α}
    (h : x.mapError f = .ok a) : x = .ok a := by
  cases x with
  | error e => cases h
  | ok b =>
    cases h
    rfl

namespace Keeps

theorem apply (hkeeps : g.Keeps P) (hrule : rule ∈ g.options) {value : Option String}
    (hp : P p.settings) (h : g.apply p rule value = .ok q) : P q.settings := by
  unfold Grammar.apply at h
  dsimp only at h
  split at h
  next set haction =>
    cases h
    exact hkeeps.flag hrule haction hp
  next set haction =>
    obtain ⟨settings, hsettings, h⟩ := exists_of_bind_ok h
    cases h
    exact hkeeps.value hrule haction hp (of_mapError_ok hsettings)
  next => cases h
  next => cases h

theorem applyAll (hkeeps : g.Keeps P) {complete : List (OptionRule σ × Option String)}
    (hcomplete : ∀ e ∈ complete, e.1 ∈ g.options) (hp : P p.settings)
    (h : g.applyAll p complete = .ok q) : P q.settings := by
  induction complete generalizing p with
  | nil =>
    cases h
    exact hp
  | cons e rest ih =>
    obtain ⟨he, hrest⟩ := List.forall_mem_cons.mp hcomplete
    rw [Grammar.applyAll, List.foldlM_cons] at h
    obtain ⟨mid, hmid, h⟩ := exists_of_bind_ok h
    exact ih hrest (hkeeps.apply he hp hmid) h

theorem setPositional (hkeeps : g.Keeps P) {values : List String} (hp : P p.settings)
    (h : g.setPositional p values = .ok q) : P q.settings := by
  obtain ⟨settings, hsettings, h⟩ := exists_of_bind_ok h
  cases h
  exact hkeeps.positional hp (of_mapError_ok hsettings)

/-- What has been marked as options of the grammar is worked off without breaking the invariant. -/
theorem work (hkeeps : g.Keeps P) (p : Progress σ) (marks : List (Mark σ × String))
    (hmarks : ∀ m ∈ marks, ∀ found, m.1 = .option found → found.rule ∈ g.options)
    (hp : P p.settings) (h : g.work p marks = .ok q) : P q.settings := by
  match marks with
  | [] =>
    cases h
    exact hp
  | (.unknownOption, text) :: rest =>
    rw [Grammar.work] at h
    exact hkeeps.work (setAside p text) rest (List.forall_mem_cons.mp hmarks).2 hp h
  | (.option found, text) :: rest =>
    obtain ⟨hfound, hrest⟩ := List.forall_mem_cons.mp hmarks
    rw [Grammar.work] at h
    obtain ⟨c, hc, h⟩ := exists_of_bind_ok h
    obtain ⟨hcomplete, hunfinished⟩ := knows_of_clusterOf (hfound found rfl) hc
    split at h
    next =>
      obtain ⟨mid, hmid, h⟩ := exists_of_bind_ok h
      exact hkeeps.work mid rest hrest (hkeeps.applyAll hcomplete hp hmid) h
    next rule hrule =>
      split at h
      next value more _ =>
        obtain ⟨mid, hmid, h⟩ := exists_of_bind_ok h
        have hall : ∀ e ∈ c.complete ++ [(rule, some value)], e.1 ∈ g.options :=
          List.forall_mem_append.mpr
            ⟨hcomplete, List.forall_mem_singleton.mpr (hunfinished rule hrule)⟩
        exact hkeeps.work mid more (List.forall_mem_cons.mp hrest).2
          (hkeeps.applyAll hall hp hmid) h
      next => cases h
  | (.argument, text) :: rest =>
    have hrest := (List.forall_mem_cons.mp hmarks).2
    rw [Grammar.work] at h
    split at h
    · exact hkeeps.work (setAside p text) rest hrest hp h
    split at h
    · exact hkeeps.setPositional hp h
    obtain ⟨mid, hmid, h⟩ := exists_of_bind_ok h
    have hmid' := hkeeps.setPositional hp hmid
    cases rest with
    | nil => exact hkeeps.work mid [] hrest hmid' h
    | cons m more =>
      obtain ⟨mark, text⟩ := m
      cases mark with
      | separator => exact hkeeps.work mid more (List.forall_mem_cons.mp hrest).2 hmid' h
      | _ => exact hkeeps.work mid _ hrest hmid' h
  | (.separator, text) :: rest =>
    have hrest := (List.forall_mem_cons.mp hmarks).2
    rw [Grammar.work.eq_def] at h
    dsimp only at h
    split at h
    next value more _ =>
      split at h
      · exact hkeeps.setPositional hp h
      obtain ⟨mid, hmid, h⟩ := exists_of_bind_ok h
      exact hkeeps.work mid more (List.forall_mem_cons.mp hrest).2
        (hkeeps.setPositional hp hmid) h
    next => exact hkeeps.work (setAside p text) _ hrest hp h
  termination_by marks.length

end Keeps

theorem Keeps.read (hkeeps : g.Keeps P) {settings after : σ} {arguments aside : List String}
    (hp : P settings) (h : g.read settings arguments = .ok (after, aside)) : P after := by
  obtain ⟨marks, hmarks, h⟩ := exists_of_bind_ok h
  obtain ⟨q, hq, h⟩ := exists_of_bind_ok h
  have hq' := hkeeps.work { settings } marks (mem_of_markAll hmarks) hp hq
  split at h
  · cases h
    exact hq'
  · cases h

end Grammar

/-- The ranges that settings can have begin at a natural number. -/
def DisasmArguments.StartsNatural (a : DisasmArguments) : Prop :=
  ∀ first last, a.range = .between first last → 0 ≤ first

theorem disasmGrammar_keeps : disasmGrammar.Keeps DisasmArguments.StartsNatural where
  flag hrule haction _ := by
    simp only [disasmGrammar, List.mem_cons, List.not_mem_nil, or_false] at hrule
    obtain rfl | rfl | rfl := hrule <;> cases haction
  value {rule set v s t} hrule haction hs ht := by
    simp only [disasmGrammar, List.mem_cons, List.not_mem_nil, or_false] at hrule
    obtain rfl | rfl | rfl := hrule
    · cases haction
    · cases haction
      cases v with
      | none =>
        cases ht
        nofun
      | some text =>
        obtain ⟨⟨first, last⟩, hparse, ht⟩ := exists_of_bind_ok ht
        cases ht
        rintro a b heq
        cases heq
        exact parseRange_nonneg (Grammar.of_mapError_ok hparse)
    · cases haction
      cases ht
      exact hs
  positional hs ht := by
    cases ht
    exact hs

theorem startsNatural_of_readCommand {name : String} {arguments aside : List String}
    {a : DisasmArguments} (h : readCommand name arguments = .ok (.disasm a, aside)) :
    a.StartsNatural := by
  have hfresh : DisasmArguments.StartsNatural {} := fun _ _ hrange => by cases hrange
  unfold readCommand at h
  split at h
  · obtain ⟨_, -, h⟩ := exists_of_bind_ok h
    cases h
  split at h
  · obtain ⟨_, hsettings, h⟩ := exists_of_bind_ok h
    cases h
    exact disasmGrammar_keeps.read hfresh hsettings
  · obtain ⟨_, -, h⟩ := exists_of_bind_ok h
    cases h

theorem startsNatural_of_readArguments {arguments : List String} {i : Invocation}
    {a : DisasmArguments} (h : readArguments arguments = .ok i)
    (hcommand : i.command = some (.disasm a)) : a.StartsNatural := by
  obtain ⟨⟨main, aside⟩, -, h⟩ := exists_of_bind_ok h
  dsimp only at h
  split at h
  next =>
    dsimp only [pure, Except.pure, bind, Except.bind] at h
    split at h
    · cases h
      cases hcommand
    · cases h
  next name rest _ =>
    obtain ⟨⟨command, more⟩, hread, h⟩ := exists_of_bind_ok h
    dsimp only [pure, Except.pure, bind, Except.bind] at h
    split at h
    · cases h
      obtain rfl := Option.some.inj hcommand
      exact startsNatural_of_readCommand hread
    · cases h

end Cli

end WordMachine
