import Sveltify.Svelte.Style

namespace Sveltify.Svelte

open Text

/-!
# Names of style properties

The name of a style property is hyphenated in two ways: with a vendor in front it is taken apart and
put together again, and otherwise each capital is replaced where it stands. Both follow one rule.

* `uniformName`: the rule. Each capital becomes a hyphen and its small letter, and there is one more
  hyphen in front of `ms` before a capital;
* `splitVendor?_eq_some`, `splitVendor?_eq_none`: what it means that a vendor is split off, or not;
* `hyphenate_vendor`, `hyphenate_rest`: hyphenating the two parts of such a name;
* `styleProperty_follows_rule`: names of letters and digits follow the rule.
-/

/-! ### The rule -/

/-- Each capital letter replaced by a hyphen and its small letter. -/
def kebab : List Char → List Char
  | [] => []
  | c :: cs => if c.isUpper then '-' :: c.toLower :: kebab cs else c :: kebab cs

/-- Does the name start with `ms` and a capital letter? -/
def isMicrosoft : List Char → Bool
  | 'm' :: 's' :: c :: _ => c.isUpper
  | _ => false

/-- The hyphenated form of a name. -/
def uniformName (name : List Char) : List Char :=
  if isMicrosoft name then '-' :: kebab name else kebab name

/-! ### Capitals -/

theorem isUpper_eq_isCapital (c : Char) : c.isUpper = isCapital c := by
  show decide (c.val ≥ 'A'.val ∧ c.val ≤ 'Z'.val) = isCapital c
  rw [Bool.eq_iff_iff]
  simp [isCapital, UInt32.le_iff_toNat_le, ← Char.toNat_val]

/-- The small letter of a capital is no capital. -/
theorem isCapital_toLower {c : Char} (h : isCapital c = true) : isCapital c.toLower = false := by
  have each : ∀ n < 0x5B, 0x41 ≤ n → isCapital (Char.ofNat n).toLower = false := by decide
  simp only [isCapital, Bool.and_eq_true, decide_eq_true_eq] at h
  have := each c.toNat (by omega) h.1
  rwa [Char.ofNat_toNat] at this

theorem hyphenate_cons (c : Char) (cs : List Char) :
    hyphenate (c :: cs) = hyphenChar c ++ hyphenate cs := List.flatMap_cons

theorem hyphenate_append (as bs : List Char) :
    hyphenate (as ++ bs) = hyphenate as ++ hyphenate bs := List.flatMap_append

/-- The rule and the code agree. -/
theorem kebab_eq_hyphenate (name : List Char) : kebab name = hyphenate name := by
  induction name with
  | nil => rfl
  | cons c cs ih =>
    rw [kebab, isUpper_eq_isCapital, ih, hyphenate_cons, hyphenChar]
    split <;> rfl

/-! ### Vendors -/

/-- A vendor that is split off stands in front of a capital. -/
theorem splitVendor?_eq_some {name vendor rest : List Char}
    (h : splitVendor? name = some (vendor, rest)) :
    vendor ∈ vendors ∧ name = vendor ++ rest ∧ ∃ c cs, rest = c :: cs ∧ isCapital c = true := by
  obtain ⟨v, hv, hsplit⟩ := List.exists_of_findSome?_eq_some h
  split at hsplit
  case isTrue hfront =>
    cases hsplit
    obtain ⟨hstart, hcapital⟩ := Bool.and_eq_true_iff.1 hfront
    obtain ⟨rest, rfl⟩ := List.isPrefixOf_iff_prefix.1 hstart
    rw [List.drop_left] at hcapital ⊢
    cases rest with
    | nil => cases hcapital
    | cons c cs => exact ⟨hv, rfl, c, cs, rfl, hcapital⟩
  case isFalse => cases hsplit

/-- If none is split off, then no vendor stands in front of a capital. -/
theorem splitVendor?_eq_none (vendor : List Char) {c : Char} {cs : List Char}
    (h : splitVendor? (vendor ++ c :: cs) = none) (hvendor : vendor ∈ vendors) :
    isCapital c = false := by
  have hnone := List.findSome?_eq_none_iff.1 h vendor hvendor
  simpa using hnone

/-- A vendor is hyphenated like any name, but for `ms`. -/
theorem hyphenate_vendor {v : List Char} (hv : v ∈ vendors) :
    '-' :: v.map Char.toLower = (if v = "ms".toList then ['-'] else []) ++ hyphenate v := by
  simp only [vendors, List.mem_cons, List.not_mem_nil, or_false] at hv
  rcases hv with rfl | rfl | rfl | rfl <;> decide

/-- So is what comes behind it. -/
theorem hyphenate_rest {c : Char} (h : isCapital c = true) (cs : List Char) :
    '-' :: hyphenate (lowerFirst (c :: cs)) = hyphenate (c :: cs) := by
  rw [lowerFirst, hyphenate_cons, hyphenate_cons, hyphenChar, hyphenChar, if_pos h,
    if_neg (by rw [isCapital_toLower h]; exact Bool.false_ne_true)]
  rfl

/-- The rule puts a hyphen in front just if the vendor is `ms`. -/
theorem isMicrosoft_of_some {vendor rest : List Char}
    (h : splitVendor? (vendor ++ rest) = some (vendor, rest)) :
    isMicrosoft (vendor ++ rest) = decide (vendor = "ms".toList) := by
  obtain ⟨hvendor, -, c, cs, rfl, hc⟩ := splitVendor?_eq_some h
  simp only [vendors, List.mem_cons, List.not_mem_nil, or_false] at hvendor
  rcases hvendor with rfl | rfl | rfl | rfl
  · rfl
  · rfl
  · exact (isUpper_eq_isCapital c).trans hc
  · rfl

theorem isMicrosoft_of_none {name : List Char} (h : splitVendor? name = none) :
    isMicrosoft name = false := by
  unfold isMicrosoft
  split
  case h_1 c cs =>
    rw [isUpper_eq_isCapital]
    exact splitVendor?_eq_none "ms".toList h (by decide)
  case h_2 => rfl

/-! ### Names -/

/-- A name with a vendor is hyphenated like any other, with one more hyphen in front of `ms`. -/
theorem styleProperty_of_vendor {name : String} (hname : "--".toList.isPrefixOf name.toList = false)
    {vendor rest : List Char} (h : splitVendor? name.toList = some (vendor, rest)) :
    styleProperty name =
      String.ofList ((if vendor = "ms".toList then ['-'] else []) ++ hyphenate name.toList) := by
  obtain ⟨hvendor, hparts, c, cs, rfl, hc⟩ := splitVendor?_eq_some h
  unfold styleProperty
  dsimp only
  rw [hname, h]
  show String.ofList ('-' :: vendor.map Char.toLower ++ '-' :: hyphenate (lowerFirst (c :: cs))) = _
  rw [hyphenate_rest hc, hyphenate_vendor hvendor, hparts, hyphenate_append, List.append_assoc]

/-- Without a vendor, the name is hyphenated. -/
theorem styleProperty_of_none {name : String} (hname : "--".toList.isPrefixOf name.toList = false)
    (h : splitVendor? name.toList = none) :
    styleProperty name = String.ofList (hyphenate name.toList) := by
  unfold styleProperty
  dsimp only
  rw [hname, h]
  rfl

/-- **Names of style properties.** A name of letters and digits is hyphenated by the uniform rule.
If it starts with a vendor, then there is something behind the vendor to take apart, and the result
is that of the plain way, with one more hyphen in front of `ms`. -/
theorem styleProperty_follows_rule {name : String} (h : ∀ c ∈ name.toList, c.isAlphanum = true) :
    styleProperty name = String.ofList (uniformName name.toList) ∧
      ∀ vendor rest, splitVendor? name.toList = some (vendor, rest) →
        rest ≠ [] ∧ styleProperty name =
          String.ofList ((if vendor = "ms".toList then ['-'] else []) ++ hyphenate name.toList) := by
  have hname : "--".toList.isPrefixOf name.toList = false := by
    rw [Bool.eq_false_iff]
    intro hcustom
    obtain ⟨rest, hrest⟩ := List.isPrefixOf_iff_prefix.1 hcustom
    cases h '-' (by rw [← hrest]; exact List.mem_cons_self)
  refine ⟨?_, fun vendor rest hsplit => ⟨?_, styleProperty_of_vendor hname hsplit⟩⟩
  · rw [uniformName, kebab_eq_hyphenate]
    cases hsplit : splitVendor? name.toList with
    | none => rw [styleProperty_of_none hname hsplit, isMicrosoft_of_none hsplit]; rfl
    | some parts =>
      obtain ⟨vendor, rest⟩ := parts
      obtain ⟨-, hparts, -⟩ := splitVendor?_eq_some hsplit
      have microsoft : isMicrosoft name.toList = decide (vendor = "ms".toList) := by
        rw [hparts] at hsplit ⊢
        exact isMicrosoft_of_some hsplit
      rw [styleProperty_of_vendor hname hsplit, microsoft]
      by_cases hms : vendor = "ms".toList
      · rw [if_pos hms, decide_eq_true hms, if_pos rfl, List.singleton_append]
      · rw [if_neg hms, decide_eq_false hms, if_neg Bool.false_ne_true, List.nil_append]
  · obtain ⟨-, -, c, cs, rfl, -⟩ := splitVendor?_eq_some hsplit
    exact List.cons_ne_nil c cs

/-- A vendor in front of two words. -/
theorem styleProperty_follows_rule_of_gridRows :
    (∀ c ∈ "msGridRows".toList, c.isAlphanum = true) ∧
      splitVendor? "msGridRows".toList = some ("ms".toList, "GridRows".toList) ∧
      styleProperty "msGridRows" = "-ms-grid-rows" := by
  have letters : ∀ c ∈ "msGridRows".toList, c.isAlphanum = true :=
    List.all_eq_true.1 (by decide)
  refine ⟨letters, by decide, ?_⟩
  rw [(styleProperty_follows_rule letters).1]
  decide

end Sveltify.Svelte
