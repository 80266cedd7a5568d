import Sveltify.Proofs.Step
import Sveltify.Svelte.Component.Printer

namespace Sveltify.Svelte

open Text

/-!
# The language in print

The language of a component is noted in the opening tags of its scripts. If the entries of its
scripts are printed alike in both languages, the two files differ in nothing else.

* `withoutLanguage`: a file without that note;
* `SameFile`: files that are the same without it. Such files are put together line by line
  (`SameFile.append`) and section by section (`SameFile.sections`);
* `print_typescript`: the two files of a component.
-/

/-- An opening tag of a script without the note of its language; any other line as it is. -/
def dropLanguage (line : String) : String :=
  if line = "<script lang=\"ts\">" then "<script>"
  else if line = "<script module lang=\"ts\">" then "<script module>"
  else line

/-- The file with the language taken out of the opening tags of its scripts. -/
def withoutLanguage (file : String) : String := unlines ((lines file).map dropLanguage)

/-- The files are the same without the note of a language. -/
def SameFile (s t : String) : Prop := withoutLanguage s = withoutLanguage t

/-! ### Lines one after another -/

/-- A separator ends a part. -/
theorem splitOn_append (sep : Char) (as bs : List Char) :
    splitOn sep (as ++ sep :: bs) = splitOn sep as ++ splitOn sep bs := by
  induction as with
  | nil => simp [splitOn]
  | cons c as ih =>
    obtain ⟨part, parts, hparts⟩ := List.exists_cons_of_ne_nil (splitOn_ne_nil sep as)
    by_cases hc : c = sep
    · simp [splitOn, hc, ih]
    · simp [splitOn, hc, ih, hparts]

theorem lines_append (s t : String) : lines (s ++ "\n" ++ t) = lines s ++ lines t := by
  have text : (s ++ "\n" ++ t).toList = s.toList ++ '\n' :: t.toList := by simp
  rw [lines, parts, text, splitOn_append, List.map_append]
  rfl

theorem lines_ne_nil (s : String) : lines s ≠ [] := by
  simp [lines, parts, splitOn_ne_nil]

/-- The language is removed line by line. -/
theorem withoutLanguage_append (s t : String) :
    withoutLanguage (s ++ "\n" ++ t) = withoutLanguage s ++ "\n" ++ withoutLanguage t := by
  unfold withoutLanguage unlines
  rw [lines_append, List.map_append, String.intercalate_append_of_ne_nil]
  · simpa using lines_ne_nil s
  · simpa using lines_ne_nil t

namespace SameFile

variable {s s' t t' : String}

theorem refl (s : String) : SameFile s s := rfl

/-- Files joined by a line feed. -/
theorem append (h : SameFile s s') (h' : SameFile t t') :
    SameFile (s ++ "\n" ++ t) (s' ++ "\n" ++ t') := by
  unfold SameFile at h h' ⊢
  rw [withoutLanguage_append, withoutLanguage_append, h, h']

/-- Sections with an empty line between them. -/
theorem sections {ss ss' : List String} (h : List.Forall₂ SameFile ss ss') :
    SameFile ("\n\n".intercalate ss) ("\n\n".intercalate ss') := by
  induction h with
  | nil => exact refl _
  | @cons s s' ss ss' hs hrest ih =>
    cases hrest with
    | nil => simpa using hs
    | cons hs₂ hrest₂ =>
      rw [String.intercalate_cons_cons, String.intercalate_cons_cons]
      have gap (s t : String) : s ++ "\n\n" ++ t = s ++ "\n" ++ ("" ++ "\n" ++ t) := by
        simp [← String.toList_inj]
      rw [gap, gap]
      exact hs.append ((refl "").append ih)

/-- Files joined by blank lines. -/
theorem file {ss ss' : List String} (h : List.Forall₂ SameFile ss ss') :
    SameFile ("\n\n".intercalate ss ++ "\n") ("\n\n".intercalate ss' ++ "\n") := by
  simpa using (sections h).append (refl "")

end SameFile

/-- Tags differ in the language only. -/
theorem sameFile_scriptTag (indent : String) (isModule : Bool) (body : List String) :
    SameFile (scriptTag indent true isModule body) (scriptTag indent false isModule body) := by
  have hrest : padLines indent body ++ ["</script>"] ≠ [] := by simp
  unfold scriptTag unlines
  dsimp only
  rw [List.cons_append, List.cons_append, String.intercalate_cons_of_ne_nil hrest,
    String.intercalate_cons_of_ne_nil hrest]
  refine SameFile.append ?_ (.refl _)
  unfold SameFile
  cases isModule <;> decide +kernel

/-! ### Both files of a component -/

/-- Entries printed alike make the same lines. -/
theorem scriptLines_typescript {nodes : List ScriptNode} {indent : String}
    (h : ∀ n ∈ nodes, n.lines indent true = n.lines indent false) :
    scriptLines indent true nodes = scriptLines indent false nodes := by
  unfold scriptLines
  rw [mapM_congr h]

/-- If the entries of both scripts are printed alike, so is the component but for its language. -/
theorem print_typescript {c : SvelteComponent}
    (hscript : ∀ n ∈ c.script, ∀ indent, n.lines indent true = n.lines indent false)
    (hmodule : ∀ n ∈ c.moduleScript, ∀ indent, n.lines indent true = n.lines indent false)
    (width : Nat) :
    withoutLanguage <$> SvelteComponent.print width { c with typescript := true }
      = withoutLanguage <$> SvelteComponent.print width { c with typescript := false } := by
  unfold SvelteComponent.print SvelteComponent.sections SvelteComponent.instanceScript
  dsimp only
  generalize String.ofList (List.replicate width ' ') = indent
  rw [scriptLines_typescript fun n hn => hscript n hn indent,
    scriptLines_typescript fun n hn => hmodule n hn indent]
  cases scriptLines indent false c.moduleScript with
  | error e => rfl
  | ok moduleBody =>
    cases scriptLines indent false c.script with
    | error e => rfl
    | ok body =>
      cases templateLines indent c.template with
      | error e => rfl
      | ok markup =>
        -- The two files differ in the tags of their scripts only.
        have tag (isEmpty isModule : Bool) (body : List String) : List.Forall₂ SameFile
            (if isEmpty then [] else [scriptTag indent true isModule body])
            (if isEmpty then [] else [scriptTag indent false isModule body]) := by
          cases isEmpty
          · exact .cons (sameFile_scriptTag indent isModule body) .nil
          · exact .nil
        have rest (ss : List String) : List.Forall₂ SameFile ss ss :=
          List.forall₂_same.2 fun s _ => .refl s
        refine congrArg Except.ok (SameFile.file ?_)
        exact List.rel_append (List.rel_append (List.rel_append (tag _ _ _) (tag _ _ _)) (rest _))
          (rest _)

end Sveltify.Svelte
