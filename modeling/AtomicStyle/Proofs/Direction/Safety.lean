import AtomicStyle.Proofs.Direction.Turning

/-!
# Emitted values are safe in both directions

A text value is checked once, before its importance mark is put back, before a keyword relative to
the direction is rendered and before anything is flipped.  `terminator?_emitted` says that the
check holds for all that is emitted later: for the values that a style resolves to and for those
of the right-to-left counterpart.

**The source value.**  The check covers the source value of a declaration, from which both values
are made (`Declaration.Resolved`).

**What follows on the check.**  Rendering and flipping keep a value safe
(`terminator?_physicalValue`, `terminator?_flip`).
-/

namespace AtomicStyle

open Css

variable {settings : Settings} {direction : Direction}

lemma Declaration.Resolved.terminator?_value {d : Declaration}
    (hd : d.Resolved settings direction) : terminator? d.value.toList = none := by
  rw [hd.value]
  exact terminator?_physicalValue hd.safe

lemma Declaration.Resolved.terminator?_counterpart {d e : Declaration}
    (hd : d.Resolved settings direction) (he : counterpartDeclaration settings d = .ok e) :
    terminator? e.value.toList = none := by
  obtain ⟨value, hvalue, rfl⟩ := counterpartDeclaration_eq_ok.mp he
  have hturned : terminator? (turned settings d).value.toList = none := by
    rw [turned, String.toList_ofList]
    exact terminator?_physicalValue hd.safe
  rw [String.toList_ofList]
  exact terminator?_flip hturned hvalue

/-- **No emitted value would end its declaration or leave anything open**, neither a value that a
style resolves to nor one of the right-to-left counterpart. -/
theorem terminator?_emitted {style : Value} {s : DeclarationSet}
    (h : resolveStyle settings direction style = .ok s) :
    (∀ d ∈ s.declarations, terminator? d.value.toList = none) ∧
      ∀ t, counterpart settings s = .ok t →
        ∀ d ∈ t.declarations, terminator? d.value.toList = none := by
  constructor
  · intro d hd
    exact (resolved_of_mem h hd).terminator?_value
  · intro t ht e he
    obtain ⟨d, hd, hde⟩ := exists_of_mem_forall₂ (forall₂_counterpart ht) he
    exact (resolved_of_mem h hd).terminator?_counterpart hde

/-- A keyword is rendered, a shadow and a gradient are flipped, and a mark is put back.  The comma
of the shadow stands inside quotes for the splitter, which knows no escapes, and outside for the
scan. -/
theorem terminator?_emitted_flipped :
    ∃ s t : DeclarationSet,
      resolveStyle { resolution := .physical } .ltr
          (.map [(.text "float", .text "start !IMPORTANT"),
            (.text "box-shadow", .text "1px  2px ';\\'', 0 3px"),
            (.text "mask", .text "linear-gradient(to left,red)")]) = .ok s ∧
        counterpart { resolution := .physical } s = .ok t ∧
        t.items = [("float", "right !important"), ("box-shadow", "-1px 2px ';\\'', 0 3px"),
          ("mask", "linear-gradient(to right,red)")] ∧
        (∀ d ∈ s.declarations, terminator? d.value.toList = none) ∧
        ∀ d ∈ t.declarations, terminator? d.value.toList = none := by
  have hs := eq_ok_of_toOption (x := resolveStyle { resolution := .physical } .ltr
      (.map [(.text "float", .text "start !IMPORTANT"),
        (.text "box-shadow", .text "1px  2px ';\\'', 0 3px"),
        (.text "mask", .text "linear-gradient(to left,red)")]))
    (a := .ofList
      [⟨"float", "left !important", "float", some "start !important"⟩,
        ⟨"box-shadow", "1px 2px ';\\'', 0 3px", "box-shadow", none⟩,
        ⟨"mask", "linear-gradient(to left,red)", "mask", none⟩]) (by decide +kernel)
  have ht := eq_ok_of_toOption (x := counterpart { resolution := .physical } (.ofList
      [⟨"float", "left !important", "float", some "start !important"⟩,
        ⟨"box-shadow", "1px 2px ';\\'', 0 3px", "box-shadow", none⟩,
        ⟨"mask", "linear-gradient(to left,red)", "mask", none⟩]))
    (a := .ofList
      [⟨"float", "right !important", "float", some "start !important"⟩,
        ⟨"box-shadow", "-1px 2px ';\\'', 0 3px", "box-shadow", none⟩,
        ⟨"mask", "linear-gradient(to right,red)", "mask", none⟩] false) (by decide +kernel)
  obtain ⟨hltr, hrtl⟩ := terminator?_emitted hs
  exact ⟨_, _, hs, ht, rfl, hltr, hrtl _ ht⟩

end AtomicStyle
