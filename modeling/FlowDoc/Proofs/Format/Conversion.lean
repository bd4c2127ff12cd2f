import FlowDoc.Proofs.Markdown.Reading

/-!
# Converting Markdown

Unless raw markup is replayed, Markdown can be converted to every format that is written: no text is refused, and no
syntax tree of the right shape is (**`convert_markdown`**).
-/

namespace FlowDoc

open Render

variable {o : Options} {d : Document}

/-- What fails exactly if there is a fault succeeds if there is none. -/
theorem exists_ok_of_fault {α : Type} {r : Except RenderError α} {fault : Option RenderError}
    (h : ∀ e, r = .error e ↔ fault = some e) (none : fault = none) : ∃ a, r = .ok a := by
  cases r with
  | ok a => exact ⟨a, rfl⟩
  | error e => cases none.symm.trans ((h e).mp rfl)

/-! ## Writing -/

namespace Registry

variable (x : Markdown.Extensions) (o) (indent : Nat) (d)

theorem serialize_xaml : (builtIn x o indent).serialize d "xaml" =
    Format.rendered (documentMarkup .builtIn o indent d) := rfl

theorem serialize_json : (builtIn x o indent).serialize d "json" =
    Format.rendered ((documentGraph .builtIn o d).map fun g => g.json.pretty) := rfl

theorem serialize_events : (builtIn x o indent).serialize d "events" =
    Format.rendered ((documentEvents .builtIn o .native d).map Xaml.outline) := rfl

theorem parse_markdown (source : String) : (builtIn x o indent).parse source "markdown" =
    (Markdown.read x source).mapError fun fault => .unreadable fault.text := rfl

variable {o d}

/-- **Documents without faults can be written** in every format. -/
theorem exists_serialize (ho : o.rawMarkup ≠ .replay) (hd : ∀ mode, documentFault mode d = none) {name : String}
    (hn : name ∈ ["xaml", "json", "events"]) : ∃ out, (builtIn x o indent).serialize d name = .ok out := by
  have signals := fun mode e => documentSignals_error_iff ho mode d e
  simp only [List.mem_cons, List.not_mem_nil, or_false] at hn
  rcases hn with rfl | rfl | rfl
  · obtain ⟨out, written⟩ : ∃ out, documentMarkup .builtIn o indent d = .ok out := exists_ok_of_fault
      (fun e => (documentMarkup_error_iff areBuiltIn_builtIn).trans (signals .text e)) (hd .text)
    exact ⟨out, by rw [serialize_xaml, written]; rfl⟩
  · obtain ⟨g, built⟩ := exists_ok_of_fault
      (fun e => (documentGraph_error_iff areBuiltIn_builtIn).trans (signals .native e)) (hd .native)
    exact ⟨_, by rw [serialize_json, built]; rfl⟩
  · obtain ⟨events, recorded⟩ := exists_ok_of_fault
      (fun e => documentEvents_error_iff.trans (signals .native e)) (hd .native)
    exact ⟨_, by rw [serialize_events, recorded]; rfl⟩

end Registry

/-! ## Converting -/

/-- **No Markdown makes a conversion fail.** With any extensions, and any options that do not replay raw markup, every
text is converted to every format; and so is every syntax tree of the right shape, whatever it was read from. -/
theorem convert_markdown (x : Markdown.Extensions) (o : Options) (indent : Nat) (ho : o.rawMarkup ≠ .replay)
    (name : String) (hn : name ∈ ["xaml", "json", "events"]) :
    (∀ source, ∃ out, (Registry.builtIn x o indent).convert source "markdown" name = .ok out) ∧
    ∀ tree : Markdown.Node, tree.isWellShaped = true →
      ∃ d out, tree.toDocument = .ok d ∧ (Registry.builtIn x o indent).serialize d name = .ok out := by
  have whole : ∀ tree : Markdown.Node, tree.isWellShaped = true →
      ∃ d out, tree.toDocument = .ok d ∧ (Registry.builtIn x o indent).serialize d name = .ok out := by
    intro tree shaped
    obtain ⟨d, made, faultless⟩ := Markdown.exists_toDocument shaped
    obtain ⟨out, written⟩ := Registry.exists_serialize x indent ho faultless hn
    exact ⟨d, out, made, written⟩
  refine ⟨fun source => ?_, whole⟩
  obtain ⟨d, out, made, written⟩ := whole _ (Markdown.isWellShaped_tree x source)
  refine ⟨out, ?_⟩
  rw [Registry.convert, Registry.parse_markdown, Markdown.read, made]
  exact written

/-- A list of nine digits with a task, a table, and a construct that no document has. -/
theorem convert_markdown_list : ∃ d out,
    Markdown.Node.toDocument (.mk .document [
      .mk (.list (some 999999999)) [.mk .item [.mk .paragraph [.mk (.text "a") []]], .mk (.task true) [.mk .other []]],
      .mk (.table [some .left]) [.mk (.row true) [.mk .cell [.mk (.link ⟨"u", "t"⟩) [.mk (.code "c") []]]]]]) = .ok d ∧
    (Registry.builtIn { superscript := true } { rawMarkup := .text } 4).serialize d "xaml" = .ok out :=
  (convert_markdown _ _ _ (by decide) _ (by decide)).2 _ (by decide)

end FlowDoc
