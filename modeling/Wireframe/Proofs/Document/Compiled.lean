import Wireframe.Compiler
import Wireframe.Proofs.Analysis.Ids
import Wireframe.Proofs.Analysis.Props
import Wireframe.Proofs.Document.Json
import Wireframe.Proofs.Lexeme.Numbers
import Wireframe.Proofs.Outline.Origins

/-!
# Compiled documents are read back

All numbers of a document are written in its source, and a document has no more levels than its
outline. So what its text loses is lost by numbers that overflow as doubles, or by tags that nest
more deeply than a text may (`read?_compiled`).
-/

namespace Wireframe

namespace Outline

theorem isFinite_of_valueOf? {ts : List Token} (h : ∀ t ∈ ts, t.isFinite = true) {v : Value}
    (hv : valueOf? ts = some v) : v.isFinite = true := by
  match ts with
  | [] => cases hv
  | [t] =>
    have finite := h t List.mem_cons_self
    unfold Token.isFinite at finite
    unfold valueOf? at hv
    cases hk : t.kind <;> simp only [hk] at hv finite
    case number x =>
      obtain rfl := Option.some.inj hv
      exact finite
    case ident name =>
      split at hv
      · obtain rfl := Option.some.inj hv
        rfl
      · split at hv <;> obtain rfl := Option.some.inj hv <;> rfl
    all_goals
      obtain rfl := Option.some.inj hv
      rfl
  | t :: u :: ts =>
    obtain rfl := Option.some.inj hv
    rfl

theorem isFinite_of_callValue? {ts : List Token} (h : ∀ t ∈ ts, t.isFinite = true) {v : Value}
    (hv : callValue? ts = some v) : v.isFinite = true := by
  unfold callValue? at hv
  split at hv
  · obtain rfl := Option.some.inj hv
    rfl
  next argument one =>
    have part : argument ∈ splitWhere (·.kind = .comma) ts :=
      List.mem_of_mem_filter (one ▸ List.mem_singleton_self argument)
    exact isFinite_of_valueOf? (fun t ht => h t (mem_of_mem_splitWhere part ht).1) hv
  · obtain rfl := Option.some.inj hv
    rfl

end Outline

/-- Finite numbers are written by finite numbers. -/
theorem Value.From.isFinite {v : Value} (h : v.From (·.isFinite = true)) : v.isFinite = true := by
  cases h with
  | run h hv => exact Outline.isFinite_of_valueOf? h hv
  | call h hv => exact Outline.isFinite_of_callValue? h hv
  | absent => rfl

/-! ## Numbers of components -/

namespace Vocabulary

theorem isFinite_canonicalValue (key : String) {v : Value} (h : v.isFinite = true) :
    (canonicalValue key v).isFinite = true := by
  unfold canonicalValue
  split
  · dsimp only
    split
    · cases words.lookup _ <;> rfl
    · split
      · cases truths.lookup _ <;> rfl
      · rfl
  · exact h

theorem isFinite_defaults (kind : Kind) :
    ∀ p ∈ (defaults kind).entries, p.2.isFinite = true := by
  cases kind <;> decide +kernel

theorem isFinite_implied (tag : String) : ∀ p ∈ implied tag, p.2.isFinite = true := by
  unfold implied
  split <;> decide +kernel

end Vocabulary

namespace Element

/-- The vocabulary adds no number that is not finite. -/
theorem isFinite_props {e : Element} (h : e.From (·.isFinite = true)) (kind : Kind) :
    ∀ p ∈ (e.props kind).entries, p.2.isFinite = true := by
  have written : ∀ a ∈ e.layout ++ e.attributes, a.value.isFinite = true :=
    List.forall_mem_append.mpr ⟨fun a ha => (h.layout a ha).value.isFinite,
      fun a ha => (h.attributes a ha).value.isFinite⟩
  exact forall_mem_props (fun _ v => v.isFinite = true) (Vocabulary.isFinite_defaults kind)
    (Vocabulary.isFinite_implied _)
    (fun a ha _ _ => Vocabulary.isFinite_canonicalValue _ (written a ha)) fun _ => rfl

end Element

namespace Analysis

open Identifier

theorem allFinite_document? {o : Outline} {options : Options} {d : Document}
    (h : (document? o options).1 = some d) (finite : o.From (·.isFinite = true)) :
    Document.allFinite (Tree.preorderAll d.children) = true := by
  refine List.all_eq_true.mpr fun t ht => List.all_eq_true.mpr fun p hp => ?_
  obtain ⟨s, hs, props⟩ := exists_mem_outline h (d.nodes_eq ▸ ht)
  exact Element.isFinite_props (finite s hs) t.value.kind p (props ▸ hp)

/-! ## Levels -/

section

variable (strict : Bool) (target : Platform)

mutual

theorem height_tree (parent : Option Kind) (ids : Allocator) (t : Tree Element) :
    Tree.heightAll (tree strict target parent ids t).trees ≤ t.height := by
  match t with
  | .node e ts =>
    rw [tree, Tree.height]
    cases Vocabulary.kindOf? e.tag with
    | none => exact (height_trees parent ids ts).trans (Nat.le_succ _)
    | some kind =>
      dsimp only
      split
      · exact Nat.zero_le _
      · have below := height_trees (some kind) (assignId ids e kind).2.2 ts
        rw [Tree.heightAll, Tree.heightAll, Nat.max_zero, Tree.height]
        exact Nat.succ_le_succ below

/-- Components are not on more levels than the elements that they come from. -/
theorem height_trees (parent : Option Kind) (ids : Allocator) (ts : List (Tree Element)) :
    Tree.heightAll (trees strict target parent ids ts).trees ≤ Tree.heightAll ts := by
  match ts with
  | [] => exact Nat.le_refl _
  | t :: ts =>
    have first := height_tree parent ids t
    have more := height_trees parent (tree strict target parent ids t).ids ts
    rw [trees, Tree.heightAll, Tree.heightAll_append]
    omega

end

end

theorem height_document? {o : Outline} {options : Options} {d : Document}
    (h : (document? o options).1 = some d) :
    Tree.heightAll d.children ≤ Tree.heightAll o := by
  have children := children_document? o options
  rw [h, Option.elim_some] at children
  rw [children]
  exact height_trees options.strict options.target none _ o

end Analysis

/-! ## The texts of compiled documents -/

namespace Outline

theorem from_read {K : Token → Prop} {source : String}
    (h : ∀ t ∈ (Token.scan source).1, K t) : From K (read source).1 :=
  from_ofTokens (Token.lined_scan source) (Token.atLineEnd_scan source) h

end Outline

namespace Compiler

theorem document?_of_compile {source : String} {options : Options} {c : Compiled}
    (h : compile source options = .ok c) :
    (Analysis.document? (Outline.read source).1 options).1 = some c.document := by
  rw [compile] at h
  split at h
  next d hd =>
    obtain rfl := Except.ok.inj h
    exact hd
  · cases h

/-- Both texts of a compiled document are read as this document when its numbers are finite and it
has no more than 62 levels, and otherwise they are refused. It is like that when no number in its
source overflows and its outline has no more levels. -/
theorem read?_compiled {source : String} {options : Options} {c : Compiled}
    (h : compile source options = .ok c) :
    (Document.read? c.document.compact =
        if c.document.Readable then some c.document else none) ∧
      (Document.read? c.document.pretty =
        if c.document.Readable then some c.document else none) ∧
      ((∀ t ∈ (Token.scan source).1, ∀ d ∈ t.decimal?, d.value < Decimal.overflowThreshold) →
        Tree.heightAll (Outline.read source).1 ≤ 62 → c.document.Readable) := by
  obtain ⟨compact, pretty⟩ := c.document.read?_texts
  have document := document?_of_compile h
  refine ⟨compact, pretty, fun bounded levels => ⟨?_, ?_⟩⟩
  · have finite : ∀ t ∈ (Token.scan source).1, t.isFinite = true :=
      fun t ht => (Token.isFinite_scan ht).mpr (bounded t ht)
    exact Analysis.allFinite_document? document (Outline.from_read finite)
  · exact (Analysis.height_document? document).trans levels

/-- What is found out about a compilation is found out about a compiled document. -/
theorem exists_compiled {α : Type} {source : String} {options : Options} {f : Compiled → α} {a : α}
    (h : (compile source options).toOption.map f = some a) :
    ∃ c, compile source options = .ok c ∧ f c = a := by
  cases hc : compile source options with
  | error e => rw [hc] at h; cases h
  | ok c => rw [hc] at h; exact ⟨c, rfl, Option.some.inj h⟩

/-- A button with numbers. -/
def numbered : String :=
  "[BUTTON: \"Go\"] ATTR: n(-1.5), m: 300"

theorem read?_compiled_numbered :
    ∃ c, compile numbered {} = .ok c ∧ c.document.size = 1 ∧
      Document.read? c.document.compact = some c.document ∧
      Document.read? c.document.pretty = some c.document := by
  have finite : ∀ t ∈ (Token.scan numbered).1, t.isFinite = true := by decide +kernel
  have levels : Tree.heightAll (Outline.read numbered).1 ≤ 62 := by decide +kernel
  have compiles : (compile numbered {}).toOption.map (fun c => c.document.size) = some 1 := by
    decide +kernel
  obtain ⟨c, hc, size⟩ := exists_compiled compiles
  obtain ⟨compact, pretty, readable⟩ := read?_compiled hc
  have bounded := readable (fun t ht => (Token.isFinite_scan ht).mp (finite t ht)) levels
  rw [if_pos bounded] at compact pretty
  exact ⟨c, hc, size, compact, pretty⟩

/-- A text with a number that is beyond every double. -/
def overflowing : List Char :=
  "[TEXT] ATTR: a(".toList ++ List.replicate 309 '9' ++ [')']

/-- A document with a number that is too large compiles without any remark and is not read back. -/
theorem overflowing_unreadable :
    ∃ c, compile (String.ofList overflowing) {} = .ok c ∧ c.diagnostics = [] ∧
      Document.read? c.document.compact = none ∧ Document.read? c.document.pretty = none := by
  have compiles (source : String) (h : Token.body source = overflowing) :
      (compile source {}).toOption.map
        (fun c => (c.diagnostics.isEmpty, decide c.document.Readable)) = some (true, false) := by
    simp only [compile, run, Outline.read, Token.scan, h]
    decide +kernel
  have body : Token.body (String.ofList overflowing) = overflowing := by
    rw [Token.body, String.toList_ofList]
    rfl
  obtain ⟨c, hc, found⟩ := exists_compiled (compiles _ body)
  obtain ⟨quiet, unreadable⟩ := Prod.mk.inj found
  obtain ⟨compact, pretty⟩ := c.document.read?_texts
  rw [if_neg (of_decide_eq_false unreadable)] at compact pretty
  exact ⟨c, hc, List.isEmpty_iff.mp quiet, compact, pretty⟩

end Compiler

end Wireframe
