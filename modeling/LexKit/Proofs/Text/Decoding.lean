import LexKit.Proofs.Text.Encoding

/-!
# Decoding in two parts

Bytes that need not be text are decoded part by part only where no part ends inside of something
that could become a character. An ASCII byte never does: it closes whatever stood open in front of
it.
-/

set_option autoImplicit false

namespace LexKit.Utf8

def Clear (bytes : Bytes) : Prop :=
  ∀ byte, bytes.getLast? = some byte → byte < 0x80

namespace Clear

variable {front back : Bytes}

theorem nil : Clear [] := by
  intro byte last
  cases last

theorem of_ascii {bytes : Bytes} (ascii : ∀ byte ∈ bytes, byte < 0x80) : Clear bytes :=
  fun byte last => ascii byte (List.mem_of_getLast? last)

theorem append_of_ne (clear : Clear back) (nonempty : back ≠ []) : Clear (front ++ back) := by
  intro byte last
  rw [List.getLast?_append_of_ne_nil _ nonempty] at last
  exact clear byte last

theorem append (first : Clear front) (second : Clear back) : Clear (front ++ back) := by
  by_cases nothing : back = []
  · rwa [nothing, List.append_nil]
  · exact second.append_of_ne nothing

theorem of_append (clear : Clear (front ++ back)) : Clear back := by
  intro byte last
  have nonempty : back ≠ [] := by
    rintro rfl
    cases last
  exact clear byte (by rwa [List.getLast?_append_of_ne_nil _ nonempty])

end Clear

namespace Progress

def behind (progress : Progress) (bytes : Bytes) : Progress :=
  bytes.foldl (fun reached byte => (step reached byte).2) progress

def Continued : Progress → Prop
  | .between => True
  | .within _ _ low _ => 0x80 ≤ low

end Progress

private theorem continued_begin (byte : UInt8) : (begin byte).2.Continued := by
  unfold begin
  repeat' split
  all_goals simp [Progress.Continued]

private theorem begin_ascii {byte : UInt8} (ascii : byte < 0x80) : (begin byte).2 = .between := by
  rw [begin, if_pos ascii]

theorem continued_step {progress : Progress} (byte : UInt8) (continued : progress.Continued) :
    (step progress byte).2.Continued := by
  cases progress with
  | between => exact continued_begin byte
  | within value missing low high =>
      unfold step
      dsimp only
      split
      · split
        · trivial
        · exact UInt8.le_refl 0x80
      · exact continued_begin byte

theorem step_ascii {progress : Progress} {byte : UInt8} (continued : progress.Continued)
    (ascii : byte < 0x80) : (step progress byte).2 = .between := by
  cases progress with
  | between => exact begin_ascii ascii
  | within value missing low high =>
      have below : ¬(low ≤ byte ∧ byte ≤ high) := by
        rintro ⟨above, -⟩
        exact UInt8.not_le.mpr ascii (UInt8.le_trans continued above)
      unfold step
      dsimp only
      rw [if_neg below]
      exact begin_ascii ascii

theorem continued_behind {progress : Progress} (bytes : Bytes) (continued : progress.Continued) :
    (progress.behind bytes).Continued := by
  induction bytes generalizing progress with
  | nil => exact continued
  | cons byte rest ih => exact ih (continued_step byte continued)

/-- Nothing stands open behind an ASCII byte. -/
theorem behind_of_clear {bytes : Bytes} (clear : Clear bytes) :
    Progress.between.behind bytes = .between := by
  rcases List.eq_nil_or_concat bytes with rfl | ⟨front, byte, rfl⟩
  · rfl
  · have ascii := clear byte (by simp)
    rw [List.concat_eq_append, Progress.behind, List.foldl_append]
    exact step_ascii (continued_behind front trivial) ascii

theorem unitsFrom_append {progress : Progress} {front : Bytes} (back : Bytes)
    (closed : progress.behind front = .between) :
    unitsFrom [] progress (front ++ back) = unitsFrom [] progress front ++ units back := by
  induction front generalizing progress with
  | nil =>
      have between : progress = .between := closed
      rw [between]
      rfl
  | cons byte rest ih =>
      simp only [List.cons_append, unitsFrom]
      rw [unitsFrom_done, unitsFrom_done _ _ rest, List.append_assoc]
      exact congrArg _ (ih closed)

/-- Bytes are decoded in two parts if the first part is empty or ends in an ASCII byte. -/
theorem decodeLossy_append {front : Bytes} (back : Bytes) (clear : Clear front) :
    decodeLossy (front ++ back) = decodeLossy front ++ decodeLossy back := by
  unfold decodeLossy units
  rw [unitsFrom_append back (behind_of_clear clear), List.map_append]
  rfl

end LexKit.Utf8
