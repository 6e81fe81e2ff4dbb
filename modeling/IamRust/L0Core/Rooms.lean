import IamRust.L0Core.LTS
import Mathlib.Data.Set.Basic
import Mathlib.Data.Set.Insert
import Mathlib.Logic.Function.Basic

/-!
# Rooms

What a chat is for, over any rooms, users and texts. A room has people in it,
some of them preside, and it has a log. A user who is in a room says something
there, and may let others in. Who presides may also send people out, and say who
presides from then on. Whoever wrote an entry may withdraw it, and so may who
presides; it keeps its place and its author.

* `extends_run`: over a run a log only grows, up to what is withdrawn.
* `said_run`: who has an entry in a log was in the room when it was written.
* `entered_run`: who is in a room founded it, or was let in by somebody in it.
-/
namespace Core

/-- An entry of a log. `body`: `none` once it is withdrawn. -/
structure Entry (υ β : Type) where
  author : υ
  body : Option β

/-- The entry is the same, or it was withdrawn. -/
def Entry.Becomes {υ β : Type} (e e' : Entry υ β) : Prop :=
  e'.author = e.author ∧ (e'.body = e.body ∨ e'.body = none)

section
variable {υ β : Type}

theorem Entry.Becomes.refl (e : Entry υ β) : e.Becomes e := ⟨rfl, .inl rfl⟩

theorem Entry.Becomes.trans {e e' e'' : Entry υ β} (h : e.Becomes e') (h' : e'.Becomes e'') :
    e.Becomes e'' := by
  refine ⟨h'.1.trans h.1, ?_⟩
  rcases h'.2 with h' | h'
  · rw [h']
    exact h.2
  · exact .inr h'

end

structure Rooms (ρ υ β : Type) where
  present : ρ → Set υ
  presiding : ρ → Set υ
  log : ρ → List (Entry υ β)

namespace Rooms

/-- The moves, each with the user who makes it. -/
inductive Move (ρ υ β : Type) where
  | founds (user : υ) (r : ρ) (us presiding : Set υ)
  | admits (user : υ) (us : ρ → Set υ)
  | dismisses (user : υ) (us : ρ → Set υ)
  | appoints (user : υ) (us : ρ → Set υ)
  | posts (user : υ) (r : ρ) (body : β)
  | withdraws (user : υ) (r : ρ) (i : Nat)

variable {ρ υ β : Type} [DecidableEq ρ]

def Move.user : Move ρ υ β → υ
  | .founds u _ _ _ | .admits u _ | .dismisses u _ | .appoints u _ | .posts u _ _
  | .withdraws u _ _ => u

/-- Who may do what. -/
inductive Step (s : Rooms ρ υ β) : Move ρ υ β → Rooms ρ υ β → Prop where
  | founds {user r us presiding} (hempty : s.present r = ∅) (hlog : s.log r = [])
    (huser : user ∈ us) (hpresiding : presiding ⊆ us) :
    Step s (.founds user r us presiding) { s with
      present := Function.update s.present r us
      presiding := Function.update s.presiding r presiding }
  | admits {user us} (huser : ∀ r, us r = ∅ ∨ user ∈ s.present r) :
    Step s (.admits user us) { s with present := fun r => s.present r ∪ us r }
  | dismisses {user us} (huser : ∀ r, us r ⊆ {user} ∨ user ∈ s.presiding r) :
    Step s (.dismisses user us) { s with
      present := fun r => s.present r \ us r
      presiding := fun r => s.presiding r \ us r }
  | appoints {user us} (huser : ∀ r, us r = s.presiding r ∨ user ∈ s.presiding r)
    (hpresent : ∀ r, us r ⊆ s.present r) :
    Step s (.appoints user us) { s with presiding := us }
  | posts {user r body} (huser : user ∈ s.present r) :
    Step s (.posts user r body)
      { s with log := Function.update s.log r (s.log r ++ [⟨user, some body⟩]) }
  | withdraws {user r i e} (hentry : (s.log r)[i]? = some e)
    (huser : user = e.author ∨ user ∈ s.presiding r) :
    Step s (.withdraws user r i)
      { s with log := Function.update s.log r ((s.log r).set i ⟨e.author, none⟩) }

end Rooms

/-- From rooms with nobody in them and nothing said. -/
def rooms (ρ υ β : Type) [DecidableEq ρ] : LTS (Rooms ρ υ β) (Rooms.Move ρ υ β) where
  init s := s = ⟨fun _ => ∅, fun _ => ∅, fun _ => []⟩
  step := Rooms.Step

namespace Rooms

variable {ρ υ β : Type} [DecidableEq ρ] {s s' : Rooms ρ υ β} {mv : Move ρ υ β}
  {mvs : List (Move ρ υ β)}

/-! ## Turns -/

/-- Moves of one user lead from one state to the other. -/
def Turn (user : υ) (s s' : Rooms ρ υ β) : Prop :=
  ∃ mvs, (rooms ρ υ β).Run s mvs s' ∧ ∀ mv ∈ mvs, mv.user = user

theorem Turn.refl (user : υ) (s : Rooms ρ υ β) : Turn user s s :=
  ⟨[], .nil s, fun _ h => absurd h List.not_mem_nil⟩

theorem Turn.trans {user : υ} {s s' s'' : Rooms ρ υ β} (h : Turn user s s')
    (h' : Turn user s' s'') : Turn user s s'' := by
  obtain ⟨mvs, hrun, husers⟩ := h
  obtain ⟨mvs', hrun', husers'⟩ := h'
  refine ⟨mvs ++ mvs', hrun.append hrun', fun mv hmv => ?_⟩
  rcases List.mem_append.mp hmv with hmv | hmv
  · exact husers mv hmv
  · exact husers' mv hmv

theorem Step.turn (h : Step s mv s') : Turn mv.user s s' := by
  refine ⟨[mv], .cons h (.nil s'), fun mv' hmv => ?_⟩
  rw [List.mem_singleton.mp hmv]

/-! ## Logs -/

/-- Every entry is still there, up to what was withdrawn. -/
def Extends (s s' : Rooms ρ υ β) : Prop :=
  ∀ (r : ρ) (i : Nat) (e : Entry υ β), (s.log r)[i]? = some e →
    ∃ e', (s'.log r)[i]? = some e' ∧ e.Becomes e'

/-- **Step.** -/
theorem Step.extends (h : Step s mv s') : s.Extends s' := by
  intro r i e he
  have hsame : s'.log r = s.log r → ∃ e', (s'.log r)[i]? = some e' ∧ e.Becomes e' := by
    intro hlog
    exact ⟨e, by rw [hlog, he], .refl e⟩
  cases h with
  | founds => exact hsame rfl
  | admits => exact hsame rfl
  | dismisses => exact hsame rfl
  | appoints => exact hsame rfl
  | @posts user r' body huser =>
    by_cases hr : r = r'
    · subst hr
      have hi : i < (s.log r).length := (List.getElem?_eq_some_iff.mp he).1
      exact ⟨e, by simp [List.getElem?_append_left hi, he], .refl e⟩
    · exact hsame (Function.update_of_ne hr _ _)
  | @withdraws user r' j e₀ hentry huser =>
    by_cases hr : r = r'
    · subst hr
      by_cases hj : j = i
      · subst hj
        cases hentry.symm.trans he
        refine ⟨⟨e.author, none⟩, ?_, rfl, .inr rfl⟩
        simp [(List.getElem?_eq_some_iff.mp he).1]
      · exact ⟨e, by simp [List.getElem?_set_ne hj, he], .refl e⟩
    · exact hsame (Function.update_of_ne hr _ _)

/-- **Logs grow.** -/
theorem extends_run (h : (rooms ρ υ β).Run s mvs s') : s.Extends s' := by
  refine h.relates (R := Extends) (fun _ _ _ e he => ⟨e, he, .refl e⟩)
    (fun a b c h₁ h₂ r i e he => ?_) fun _ _ _ hs => Step.extends hs
  obtain ⟨e', he', hbecomes⟩ := h₁ r i e he
  obtain ⟨e'', he'', hbecomes'⟩ := h₂ r i e' he'
  exact ⟨e'', he'', hbecomes.trans hbecomes'⟩

/-- The move puts an entry at the end of the log. -/
structure Says (s : Rooms ρ υ β) (mv : Move ρ υ β) (r : ρ) (i : Nat) (e : Entry υ β) : Prop where
  present : e.author ∈ s.present r
  last : (s.log r).length = i
  move : ∃ body, mv = .posts e.author r body ∧ (⟨e.author, some body⟩ : Entry υ β).Becomes e

/-- A place that fills is the next one. -/
theorem Step.fills (h : Step s mv s') {r : ρ} {i : Nat} {e : Entry υ β}
    (hs : (s.log r)[i]? = none) (hs' : (s'.log r)[i]? = some e) : Says s mv r i e := by
  have hsame : s'.log r ≠ s.log r := by
    intro hlog
    rw [hlog, hs] at hs'
    cases hs'
  cases h with
  | founds => exact absurd rfl hsame
  | admits => exact absurd rfl hsame
  | dismisses => exact absurd rfl hsame
  | appoints => exact absurd rfl hsame
  | @posts user r' body huser =>
    by_cases hr : r = r'
    · subst hr
      have hle : (s.log r).length ≤ i := List.getElem?_eq_none_iff.mp hs
      simp only [Function.update_self] at hs'
      obtain ⟨hi, he⟩ := List.getElem?_eq_some_iff.mp hs'
      have hi : i = (s.log r).length := by
        simp at hi
        omega
      subst hi
      simp at he
      subst he
      exact ⟨huser, rfl, body, rfl, .refl _⟩
    · exact absurd (Function.update_of_ne hr _ _) hsame
  | @withdraws user r' j e₀ hentry huser =>
    by_cases hr : r = r'
    · subst hr
      simp only [Function.update_self] at hs'
      have hle : (s.log r).length ≤ i := List.getElem?_eq_none_iff.mp hs
      obtain ⟨hi, -⟩ := List.getElem?_eq_some_iff.mp hs'
      rw [List.length_set] at hi
      omega
    · exact absurd (Function.update_of_ne hr _ _) hsame

/-- **Who has an entry was there** and said it, or what is left of it. -/
theorem said_run (h : (rooms ρ υ β).Run s mvs s') {r : ρ} {i : Nat} {e : Entry υ β}
    (hs : (s.log r)[i]? = none) (hs' : (s'.log r)[i]? = some e) :
    ∃ before mv after s₁, mvs = before ++ mv :: after ∧ (rooms ρ υ β).Run s before s₁ ∧
      Says s₁ mv r i e := by
  obtain ⟨before, mv, after, s₁, s₂, rfl, hbefore, hstep, hafter, h₁, h₂⟩ := h.crosses
    (P := fun t => (t.log r)[i]?.isSome) (by simp [hs]) (by simp [hs'])
  obtain ⟨e₂, he₂⟩ := Option.isSome_iff_exists.mp h₂
  obtain ⟨e', he', hbecomes⟩ := extends_run hafter r i e₂ he₂
  cases he'.symm.trans hs'
  obtain ⟨hpresent, hlast, body, hmv, hbody⟩ := Step.fills hstep (by simpa using h₁) he₂
  refine ⟨before, mv, after, s₁, rfl, hbefore, ⟨?_, hlast, body, ?_, ?_⟩⟩
  · rw [hbecomes.1]
    exact hpresent
  · rw [hmv, hbecomes.1]
  · rw [hbecomes.1]
    exact hbody.trans hbecomes

/-! ## People -/

/-- The move lets the user in: a founder does, or somebody who is in the room. -/
inductive LetsIn (s : Rooms ρ υ β) (r : ρ) (u : υ) : Move ρ υ β → Prop where
  | founded {user us presiding} (hempty : s.present r = ∅) (huser : user ∈ us) (hu : u ∈ us) :
    LetsIn s r u (.founds user r us presiding)
  | admitted {user us} (huser : user ∈ s.present r) (hu : u ∈ us r) :
    LetsIn s r u (.admits user us)

theorem Step.letsIn (h : Step s mv s') {r : ρ} {u : υ} (hs : u ∉ s.present r)
    (hs' : u ∈ s'.present r) : LetsIn s r u mv := by
  cases h with
  | @founds user r' us presiding hempty hlog huser hpresiding =>
    by_cases hr : r = r'
    · subst hr
      exact .founded hempty huser (by simpa using hs')
    · exact absurd (by simpa [Function.update_of_ne hr] using hs') hs
  | @admits user us huser =>
    have hu : u ∈ us r := hs'.resolve_left hs
    rcases huser r with hnone | huser
    · rw [hnone] at hu
      cases hu
    · exact .admitted huser hu
  | dismisses => exact absurd hs'.1 hs
  | appoints => exact absurd hs' hs
  | posts => exact absurd hs' hs
  | withdraws => exact absurd hs' hs

/-- **Who is in a room was let in.** -/
theorem entered_run (h : (rooms ρ υ β).Run s mvs s') {r : ρ} {u : υ} (hs : u ∉ s.present r)
    (hs' : u ∈ s'.present r) :
    ∃ before mv after s₁, mvs = before ++ mv :: after ∧ (rooms ρ υ β).Run s before s₁ ∧
      LetsIn s₁ r u mv := by
  obtain ⟨before, mv, after, s₁, s₂, rfl, hbefore, hstep, -, h₁, h₂⟩ := h.crosses
    (P := fun t => u ∈ t.present r) hs hs'
  exact ⟨before, mv, after, s₁, rfl, hbefore, Step.letsIn hstep h₁ h₂⟩

end Rooms

end Core
