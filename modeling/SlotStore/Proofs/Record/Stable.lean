import Mathlib.Tactic.Common
import SlotStore.Proofs.Record.File

/-!
# Properties that operations on a record file keep

Operations that fail may still have changed the file, and any caller may be wrong about what is in
it.  What is kept through every operation, whether it succeeds or fails, is found step by step.

* `RecordFile.Stable` : properties that the steps of an operation keep;
* `RecordFile.stable_below`, `RecordFile.stable_unsealed` : a file ends below the last position, and
  a file without tail gets none but by sealing;
* `RecordFile.Inside` : a tail begins inside the file, also after a payload was committed behind it;
* `RecordFile.Cuts` : operations that cut the tail off.
-/

namespace SlotStore

open Steps

namespace RecordFile

/-- **A property that the steps of every operation keep**, apart from putting a tail on a file. -/
structure Stable (P : RecordFile → Prop) : Prop where
  put : ∀ start bs, Maintains P (putBytes start bs)
  resize : ∀ n, Maintains P (setLength n)
  move : ∀ f n, P f → P { f with cursor := n }
  untail : ∀ f, P f → P { f with sealedAt := none }

namespace Stable

variable {P : RecordFile → Prop}

lemma growTo (hP : Stable P) (n : Nat) : Maintains P (growTo n) := by
  intro f hf
  rw [RecordFile.growTo]
  split
  · exact hP.resize n f hf
  · exact hf

lemma dropTail (hP : Stable P) : Maintains P dropTail := by
  rw [RecordFile.dropTail]
  refine .get_bind fun f => ?_
  split
  · exact .pure
  · exact .bind (hP.resize _) fun _ => .modify fun _ h => hP.untail _ h

/-- **Reserving** maintains what is stable. -/
lemma reserve (hP : Stable P) (size : Nat) : Maintains P (reserve size) := by
  rw [RecordFile.reserve]
  refine .ite (fun _ => .throw) fun _ => ?_
  refine .ite (fun _ => .throw) fun _ => ?_
  refine .bind hP.dropTail fun _ => .get_bind fun f => ?_
  exact .bind (.bind (hP.put _ _) fun _ => hP.growTo _) fun _ =>
    .bind (.modify fun _ h => hP.move _ _ h) fun _ => .pure

lemma beginWrite (hP : Stable P) (start length capacity : Nat) (stamp : Stamp) :
    Maintains P (beginWrite start length capacity stamp) := by
  rw [RecordFile.beginWrite]
  refine .ite (fun _ => .throw) fun _ => .ite (fun _ => .throw) fun _ => ?_
  refine .ite (fun _ => .throw) fun _ => ?_
  refine .get_bind fun f => .ite (fun _ => .throw) fun _ => ?_
  exact .bind hP.dropTail fun _ => .pure

lemma fillSlot (hP : Stable P) (start : Nat) (h : Header) (payload : Bytes) :
    Maintains P (fillSlot start h payload) :=
  .bind (hP.put _ _) fun _ => .bind (hP.growTo _) fun _ => .modify fun _ h => hP.move _ _ h

lemma commit (hP : Stable P) (w : Writer) : Maintains P (commit w) := by
  rw [RecordFile.commit]
  refine .ite (fun _ => .throw) fun _ => ?_
  exact .bind (hP.fillSlot _ _ _) fun _ => .pure

lemma orFail {α : Type} (result : Except Error α) : Maintains P (orFail result) := by
  cases result with
  | ok x => exact .pure
  | error e => exact .throw

/-- **Writing a payload** maintains what is stable. -/
lemma writePayload (hP : Stable P) (start : Nat) (stamp : Stamp) (payload : Bytes)
    (capacity : Nat) : Maintains P (writePayload start stamp payload capacity) :=
  .bind (hP.beginWrite _ _ _ _) fun _ => .bind (orFail _) fun _ => hP.commit _

lemma markUnused (hP : Stable P) (start : Nat) : Maintains P (markUnused start) :=
  .get_bind fun _ => .bind (orFail _) fun _ => .bind hP.dropTail fun _ => hP.put _ _

/-- Sealing maintains what is stable if the new tail does. -/
lemma sealWith (hP : Stable P) (hseal : ∀ f start, P f → P { f with sealedAt := some start })
    (stamp : Stamp) (payload : Bytes) : Maintains P (sealWith stamp payload) := by
  rw [RecordFile.sealWith]
  refine .bind hP.dropTail fun _ => .get_bind fun f => .ite (fun _ => .throw) fun _ => ?_
  exact .bind (hP.resize _) fun _ => .bind (hP.put _ _) fun _ =>
    .bind (.modify fun _ h => hseal _ _ h) fun _ => .pure

end Stable

/-- No write makes a file reach past the last position. -/
lemma stable_below : Stable fun f => f.content.size < positionLimit where
  put start bs := by
    intro f hf
    rw [putBytes]
    split
    · exact hf
    · rename_i hpos
      by_cases hbs : bs = []
      · subst hbs
        exact hf
      · show (f.content.write start bs).size < positionLimit
        rw [Content.size_write _ _ _ hbs]
        omega
  resize n := by
    intro f hf
    rw [setLength]
    split
    · exact hf
    · rename_i hpos
      show (f.content.resize n).size < positionLimit
      rw [Content.size_resize]
      omega
  move _ _ h := h
  untail _ h := h

/-- No write seals a file. -/
lemma stable_unsealed : Stable fun f => f.sealedAt = none where
  put start bs := by
    intro f hf
    rw [putBytes]
    split <;> exact hf
  resize n := by
    intro f hf
    rw [setLength]
    split <;> exact hf
  move _ _ h := h
  untail _ _ := rfl

/-! ## Tails inside the file -/

/-- **A tail begins inside the file.** -/
def Inside (f : RecordFile) : Prop := ∀ start, f.sealedAt = some start → start ≤ f.content.size

/-- Bytes that are written leave the tail inside the file. -/
lemma inside_putBytes (start : Nat) (bs : Bytes) : Maintains Inside (putBytes start bs) := by
  intro f hf
  rw [putBytes]
  split
  · exact hf
  · exact fun stop hs => Nat.le_trans (hf stop hs) (f.content.le_size_write start bs)

lemma inside_growTo (n : Nat) : Maintains Inside (growTo n) := by
  intro f hf
  rw [growTo, setLength]
  split
  · split
    · exact hf
    · intro stop hs
      show stop ≤ (f.content.resize n).size
      have := hf stop hs
      rw [Content.size_resize]
      omega
  · exact hf

/-- A commit cuts nothing off. -/
lemma inside_commit (w : Writer) : Maintains Inside (commit w) := by
  rw [commit]
  refine .ite (fun _ => .throw) fun _ => .bind ?_ fun _ => .pure
  exact .bind (inside_putBytes _ _) fun _ => .bind (inside_growTo _) fun _ => .modify fun _ h => h

/-- The tail that is put on a file begins at the cursor. -/
lemma cursor_le_size_withTail (f : RecordFile) (stamp : Stamp) (payload : Bytes) :
    f.cursor ≤ (f.withTail stamp payload).size := by
  have hwrite := (f.content.resize f.cursor).le_size_write f.cursor (tail f.cursor stamp payload)
  rwa [Content.size_resize] at hwrite

/-! ## What cuts the tail off -/

/-- A file has no tail, or has its tail and its cursor where another file has them and is no shorter
than that. -/
def Steady (f f' : RecordFile) : Prop :=
  f'.sealedAt = none ∨
    f'.sealedAt = f.sealedAt ∧ f'.cursor = f.cursor ∧ f.content.size ≤ f'.content.size

lemma Steady.refl (f : RecordFile) : Steady f f := Or.inr ⟨rfl, rfl, Nat.le_refl _⟩

/-- **An action cuts the tail off** if it succeeds, and puts none on if it fails. -/
structure Cuts {α : Type} (act : FileM α) : Prop where
  ok : ∀ {f x f'}, act f = .ok x f' → f'.sealedAt = none
  error : ∀ {f e f'}, act f = .error e f' → Steady f f'

namespace Cuts

variable {α β : Type} {act act' : FileM α} {next : α → FileM β}

lemma throw {e : Error} : Cuts (MonadExcept.throw e : FileM α) where
  ok h := by cases h
  error h := by cases h; exact .refl _

lemma ite {p : Prop} [Decidable p] (h : Cuts act) (h' : Cuts act') :
    Cuts (if p then act else act') := by
  by_cases hp : p
  · rw [if_pos hp]
    exact h
  · rw [if_neg hp]
    exact h'

lemma get_bind {next : RecordFile → FileM β} (h : ∀ f, Cuts (next f)) : Cuts (get >>= next) where
  ok {f _ _} hok := (h f).ok hok
  error {f _ _} herr := (h f).error herr

lemma orFail_bind (result : Except Error α) (h : ∀ x, Cuts (next x)) :
    Cuts (orFail result >>= next) := by
  cases result with
  | ok x => exact h x
  | error e => exact throw

/-- What follows a cut puts no tail on. -/
lemma bind (h : Cuts act) (hnext : ∀ x, Maintains (fun f => f.sealedAt = none) (next x)) :
    Cuts (act >>= next) where
  ok hok := by
    obtain ⟨x, g, hact, hrest⟩ := bind_eq_ok hok
    exact (hnext x).of_ok hrest (h.ok hact)
  error herr := by
    rcases bind_eq_error herr with hact | ⟨x, g, hact, hrest⟩
    · exact h.error hact
    · exact Or.inl ((hnext x).of_error hrest (h.ok hact))

end Cuts

lemma cuts_dropTail : Cuts dropTail where
  ok h := dropTail_eq_ok h ▸ sealedAt_untailed _
  error {f e f'} h := by
    rw [dropTail, Steps.get_bind] at h
    cases hs : f.sealedAt with
    | none =>
      rw [hs] at h
      cases h
    | some start =>
      rw [hs] at h
      rcases bind_eq_error h with hcut | ⟨_, _, _, h⟩
      · rw [setLength] at hcut
        split at hcut <;> cases hcut
        exact .refl _
      · cases h

/-- **Reserving cuts the tail off**, or leaves tail and cursor. -/
lemma cuts_reserve (size : Nat) : Cuts (reserve size) := by
  rw [reserve]
  refine .ite .throw (.ite .throw (cuts_dropTail.bind fun _ => .get_bind fun f => ?_))
  exact .bind (.bind (stable_unsealed.put _ _) fun _ => stable_unsealed.growTo _) fun _ =>
    .bind (.modify fun _ h => h) fun _ => .pure

lemma cuts_beginWrite (start length capacity : Nat) (stamp : Stamp) :
    Cuts (beginWrite start length capacity stamp) := by
  rw [beginWrite]
  refine .ite .throw (.ite .throw (.ite .throw (.get_bind fun f => .ite .throw ?_)))
  exact cuts_dropTail.bind fun _ => .pure

/-- **Writing a payload cuts the tail off**, or leaves tail and cursor. -/
lemma cuts_writePayload (start : Nat) (stamp : Stamp) (payload : Bytes) (capacity : Nat) :
    Cuts (writePayload start stamp payload capacity) :=
  (cuts_beginWrite _ _ _ _).bind fun _ => .bind (Stable.orFail _) fun _ => stable_unsealed.commit _

lemma cuts_markUnused (start : Nat) : Cuts (markUnused start) :=
  .get_bind fun _ => .orFail_bind _ fun _ => cuts_dropTail.bind fun _ => stable_unsealed.put _ _

/-- A slot that cannot be filled leaves tail and cursor. -/
lemma steady_of_fillSlot_error {start : Nat} {h : Header} {payload : Bytes} {f f' : RecordFile}
    {e : Error} (herr : fillSlot start h payload f = .error e f') : Steady f f' := by
  rw [fillSlot] at herr
  rcases bind_eq_error herr with hput | ⟨_, g, hput, hrest⟩
  · rw [putBytes] at hput
    split at hput <;> cases hput
    exact .refl _
  · rw [putBytes] at hput
    split at hput <;> cases hput
    rcases bind_eq_error hrest with hgrow | ⟨_, _, _, hmove⟩
    · rw [growTo, setLength] at hgrow
      split at hgrow
      · split at hgrow <;> cases hgrow
        exact Or.inr ⟨rfl, rfl, f.content.le_size_write start _⟩
      · cases hgrow
    · cases hmove

/-- A commit that fails leaves tail and cursor. -/
lemma steady_of_commit_error {w : Writer} {f f' : RecordFile} {e : Error}
    (h : commit w f = .error e f') : Steady f f' := by
  rw [commit] at h
  split at h
  · cases h
    exact .refl _
  · rcases bind_eq_error h with hfill | ⟨_, _, _, hdone⟩
    · exact steady_of_fillSlot_error hfill
    · cases hdone

/-- Sealing that fails puts no tail on a file. -/
lemma steady_of_sealWith_error {stamp : Stamp} {payload : Bytes} {f f' : RecordFile} {e : Error}
    (h : sealWith stamp payload f = .error e f') : Steady f f' := by
  rw [sealWith] at h
  rcases bind_eq_error h with hdrop | ⟨_, g, hdrop, h⟩
  · exact cuts_dropTail.error hdrop
  · have hg := cuts_dropTail.ok hdrop
    rw [get_bind] at h
    dsimp only at h
    split at h
    · cases h
      exact Or.inl hg
    · rcases bind_eq_error h with hcut | ⟨_, g', hcut, h⟩
      · exact Or.inl ((stable_unsealed.resize _).of_error hcut hg)
      · have hg' := (stable_unsealed.resize _).of_ok hcut hg
        rcases bind_eq_error h with hput | ⟨_, _, _, h⟩
        · exact Or.inl ((stable_unsealed.put _ _).of_error hput hg')
        · cases h

end RecordFile

end SlotStore
