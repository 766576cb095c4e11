import Mathlib.Data.List.Perm.Basic
import Mathlib.Data.List.Nodup

/-!
# Custody of tokens

Tokens that lie at places.  A transfer takes tokens from one place and puts
them at another one; it keeps the property that every token lies at exactly one
place and only once there.
-/

namespace Custody

variable {Place Token : Type*}

/-- Every valid token lies at one place, once, and nothing else lies
anywhere. -/
structure Exact (valid : Token → Prop) (held : Place → List Token) :
    Prop where
  somewhere : ∀ token, valid token → ∃ place, token ∈ held place
  apart : ∀ {token left right}, token ∈ held left → token ∈ held right →
    left = right
  once : ∀ place, (held place).Nodup
  valid : ∀ {token place}, token ∈ held place → valid token

/-- The tokens `moved` go from `source` to `target`. -/
structure Transfer (source target : Place) (moved : List Token)
    (held next : Place → List Token) : Prop where
  differs : source ≠ target
  taken : (held source).Perm (moved ++ next source)
  put : (next target).Perm (moved ++ held target)
  others : ∀ place, place ≠ source → place ≠ target → next place = held place

variable {valid : Token → Prop} {held next : Place → List Token}
variable {source target place : Place} {moved : List Token} {token : Token}

theorem Exact.unique (exactly : Exact valid held) (isValid : valid token) :
    ∃! place, token ∈ held place := by
  obtain ⟨place, member⟩ := exactly.somewhere token isValid
  exact ⟨place, member, fun _ other => exactly.apart other member⟩

namespace Transfer

theorem moved_source (transfer : Transfer source target moved held next)
    (member : token ∈ moved) : token ∈ held source := by
  rw [transfer.taken.mem_iff]
  exact List.mem_append_left _ member

theorem mem_next (transfer : Transfer source target moved held next)
    (exactly : Exact valid held) :
    token ∈ next place ↔
      (token ∈ moved ∧ place = target) ∨
        (token ∉ moved ∧ token ∈ held place) := by
  have nodup : (moved ++ next source).Nodup :=
    transfer.taken.nodup_iff.mp (exactly.once source)
  by_cases atSource : place = source
  · subst atSource
    have disjoint := List.disjoint_of_nodup_append nodup
    rw [transfer.taken.mem_iff, List.mem_append]
    constructor
    · intro member
      exact .inr ⟨fun inMoved => disjoint inMoved member, .inr member⟩
    · rintro (⟨_, same⟩ | ⟨unmoved, inMoved | member⟩)
      · exact absurd same transfer.differs
      · exact absurd inMoved unmoved
      · exact member
  · have unmoved : token ∈ held place → token ∉ moved := by
      intro member inMoved
      exact atSource (exactly.apart member (transfer.moved_source inMoved))
    by_cases atTarget : place = target
    · subst atTarget
      rw [transfer.put.mem_iff, List.mem_append]
      constructor
      · rintro (inMoved | member)
        · exact .inl ⟨inMoved, rfl⟩
        · exact .inr ⟨unmoved member, member⟩
      · rintro (⟨inMoved, _⟩ | ⟨_, member⟩)
        · exact .inl inMoved
        · exact .inr member
    · rw [transfer.others place atSource atTarget]
      simp only [atTarget, and_false, false_or]
      exact ⟨fun member => ⟨unmoved member, member⟩, fun held => held.2⟩

/-- A transfer keeps the custody exact. -/
theorem exact (transfer : Transfer source target moved held next)
    (exactly : Exact valid held) : Exact valid next where
  somewhere token isValid := by
    obtain ⟨place, member⟩ := exactly.somewhere token isValid
    by_cases inMoved : token ∈ moved
    · exact ⟨target, (transfer.mem_next exactly).mpr (.inl ⟨inMoved, rfl⟩)⟩
    · exact ⟨place, (transfer.mem_next exactly).mpr (.inr ⟨inMoved, member⟩)⟩
  apart := by
    intro token left right inLeft inRight
    rw [transfer.mem_next exactly] at inLeft inRight
    rcases inLeft with ⟨inMoved, rfl⟩ | ⟨unmoved, heldLeft⟩
    · rcases inRight with ⟨_, rfl⟩ | ⟨unmoved, _⟩
      · rfl
      · exact absurd inMoved unmoved
    · rcases inRight with ⟨inMoved, _⟩ | ⟨_, heldRight⟩
      · exact absurd inMoved unmoved
      · exact exactly.apart heldLeft heldRight
  once place := by
    have nodup : (moved ++ next source).Nodup :=
      transfer.taken.nodup_iff.mp (exactly.once source)
    obtain ⟨movedNodup, sourceNodup, _⟩ := List.nodup_append'.mp nodup
    by_cases atSource : place = source
    · exact atSource ▸ sourceNodup
    · by_cases atTarget : place = target
      · subst atTarget
        rw [transfer.put.nodup_iff, List.nodup_append']
        refine ⟨movedNodup, exactly.once place, ?_⟩
        intro token inMoved member
        exact transfer.differs
          (exactly.apart (transfer.moved_source inMoved) member)
      · rw [transfer.others place atSource atTarget]
        exact exactly.once place
  valid := by
    intro token place member
    rcases (transfer.mem_next exactly).mp member with ⟨inMoved, _⟩ | ⟨_, held⟩
    · exact exactly.valid (transfer.moved_source inMoved)
    · exact exactly.valid held

end Transfer

end Custody
