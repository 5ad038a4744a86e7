import DeckBinding.Proofs.Expression.Pieces
import DeckBinding.Proofs.Paragraph.Shares
import DeckBinding.Proofs.Resolution.Cache
import DeckBinding.Resolution.Resolver
import Mathlib.Data.List.Forall2

set_option autoImplicit false

namespace DeckBinding

open DeckBinding.Number

def Deferred.unnumbered (call : Deferred) : Deferred :=
  { call with token := "" }

/-- Two calls, each with the token for some number, that differ in nothing else. -/
def Deferred.SameButNumber (left right : Deferred) : Prop :=
  ∃ first second, left.token = Resolver.token left.name first ∧
    right = { left with token := Resolver.token left.name second }

/-- Two outcomes that differ at most in the number of a call. -/
inductive Resolution.SameButNumber : Resolution → Resolution → Prop where
  | value (text : String) : SameButNumber (.value text) (.value text)
  | hidden (reason : String) : SameButNumber (.hidden reason) (.hidden reason)
  | call {left right : Deferred} (same : left.SameButNumber right) :
      SameButNumber (.call left) (.call right)

inductive Filling.SameButNumber : Filling → Filling → Prop where
  | kept (text : List Char) : SameButNumber (.kept text) (.kept text)
  | filled {left right : Resolution} (same : left.SameButNumber right) :
      SameButNumber (.filled left) (.filled right)

namespace Deferred.SameButNumber

theorem symm {left right : Deferred} (same : left.SameButNumber right) :
    right.SameButNumber left := by
  obtain ⟨first, second, token, rfl⟩ := same
  exact ⟨second, first, rfl, by rw [← token]⟩

theorem trans {first second third : Deferred} (left : first.SameButNumber second)
    (right : second.SameButNumber third) : first.SameButNumber third := by
  obtain ⟨number, _, token, rfl⟩ := left
  obtain ⟨_, other, _, rfl⟩ := right
  exact ⟨number, other, token, rfl⟩

theorem unnumbered_eq {left right : Deferred} (same : left.SameButNumber right) :
    left.unnumbered = right.unnumbered := by
  obtain ⟨_, _, _, rfl⟩ := same
  rfl

end Deferred.SameButNumber

namespace Resolution.SameButNumber

theorem symm {left right : Resolution} (same : left.SameButNumber right) :
    right.SameButNumber left := by
  cases same with
  | value text => exact .value text
  | hidden reason => exact .hidden reason
  | call same => exact .call same.symm

theorem trans {first second third : Resolution} (left : first.SameButNumber second)
    (right : second.SameButNumber third) : first.SameButNumber third := by
  cases left with
  | value text => exact right
  | hidden reason => exact right
  | call same =>
    cases right with
    | call more => exact .call (same.trans more)

end Resolution.SameButNumber

def hideReasons (fillings : List Filling) : List String :=
  (fillings.filterMap Filling.resolution?).filterMap Resolution.reason?

def deferredCalls (fillings : List Filling) : List Deferred :=
  (fillings.filterMap Filling.resolution?).filterMap Resolution.deferred?

@[simp] theorem TextResolution.ofFillings_reasons (fillings : List Filling) :
    (TextResolution.ofFillings fillings).reasons = hideReasons fillings := rfl

@[simp] theorem TextResolution.ofFillings_deferred (fillings : List Filling) :
    (TextResolution.ofFillings fillings).deferred = deferredCalls fillings := rfl

theorem hideReasons_append (front back : List Filling) :
    hideReasons (front ++ back) = hideReasons front ++ hideReasons back := by
  simp only [hideReasons, List.filterMap_append]

theorem deferredCalls_append (front back : List Filling) :
    deferredCalls (front ++ back) = deferredCalls front ++ deferredCalls back := by
  simp only [deferredCalls, List.filterMap_append]

theorem hideReasons_flatten (parts : List (List Filling)) :
    hideReasons parts.flatten = parts.flatMap hideReasons := by
  induction parts with
  | nil => rfl
  | cons part rest ih => rw [List.flatten_cons, hideReasons_append, ih, List.flatMap_cons]

theorem deferredCalls_flatten (parts : List (List Filling)) :
    deferredCalls parts.flatten = parts.flatMap deferredCalls := by
  induction parts with
  | nil => rfl
  | cons part rest ih => rw [List.flatten_cons, deferredCalls_append, ih, List.flatMap_cons]

theorem hideReasons_eq {parts others : List Filling}
    (same : List.Forall₂ Filling.SameButNumber parts others) :
    hideReasons parts = hideReasons others := by
  induction same with
  | nil => rfl
  | cons first _ ih =>
    unfold hideReasons at ih ⊢
    cases first with
    | kept text => exact ih
    | filled same =>
      cases same with
      | value text => exact ih
      | hidden reason => exact congrArg (reason :: ·) ih
      | call same => exact ih

theorem unnumbered_deferredCalls {parts others : List Filling}
    (same : List.Forall₂ Filling.SameButNumber parts others) :
    (deferredCalls parts).map Deferred.unnumbered =
      (deferredCalls others).map Deferred.unnumbered := by
  induction same with
  | nil => rfl
  | cons first _ ih =>
    unfold deferredCalls at ih ⊢
    cases first with
    | kept text => exact ih
    | filled same =>
      cases same with
      | value text => exact ih
      | hidden reason => exact ih
      | call same => exact congrArg₂ List.cons same.unnumbered_eq ih

/-- Without calls there are no numbers to differ in. -/
theorem eq_of_no_deferredCalls {parts others : List Filling}
    (same : List.Forall₂ Filling.SameButNumber parts others) (none : deferredCalls parts = []) :
    parts = others := by
  induction same with
  | nil => rfl
  | cons first _ ih =>
    unfold deferredCalls at ih none
    cases first with
    | kept text => rw [ih none]
    | filled same =>
      cases same with
      | value text => rw [ih none]
      | hidden reason => rw [ih none]
      | call same => cases none

/-- Calls whose tokens count upwards from a number. -/
def NumberedFrom (number : Nat) : List Deferred → Prop
  | [] => True
  | call :: rest =>
    call.token = Resolver.token call.name number ∧ NumberedFrom (number + 1) rest

theorem NumberedFrom.append {number : Nat} {front back : List Deferred}
    (first : NumberedFrom number front) (second : NumberedFrom (number + front.length) back) :
    NumberedFrom number (front ++ back) := by
  induction front generalizing number with
  | nil => exact second
  | cons call rest ih =>
    refine ⟨first.1, ih first.2 ?_⟩
    rw [List.length_cons, Nat.add_comm rest.length, ← Nat.add_assoc] at second
    exact second

end DeckBinding
