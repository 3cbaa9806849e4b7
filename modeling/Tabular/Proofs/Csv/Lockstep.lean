import Tabular.Proofs.Csv.Written

/-!
Two runs side by side, the second of which meets no failure before the first one does. As long as
the first goes on they do the same. Where it fails, what it has written is the front of what the
second writes.
-/
namespace Tabular

namespace Output

/-- The second output holds the same bytes and has room for all that the first has room for. -/
structure OutlastedBy (o o' : Output) : Prop where
  written : o.written = o'.written
  room : ∀ most, o'.room = some most → ∃ room, o.room = some room ∧ room ≤ most

theorem OutlastedBy.refl (o : Output) : o.OutlastedBy o :=
  ⟨rfl, fun room limit => ⟨room, limit, Nat.le_refl _⟩⟩

theorem OutlastedBy.bytes_eq {o o' : Output} (outlasted : o.OutlastedBy o') : o.bytes = o'.bytes :=
  congrArg Array.toList outlasted.written

end Output

/-! ## Steps of two runs -/

/-- A failure of what a run is connected to: of a read or a write, or of a fetch. -/
inductive Error.Outside : Error → Prop where
  | io (detail : String) : Outside (.io detail)
  | overwriteSource (detail : String) : Outside (.overwriteSource detail)

/-- A state with what has been written in it, and when the state of a second run is as good. -/
class Writing (σ : Type) where
  bytes : σ → Bytes
  Alike : σ → σ → Prop
  refl : ∀ s, Alike s s
  bytes_eq : ∀ {s s'}, Alike s s' → bytes s = bytes s'

open Writing (bytes Alike)

variable {σ τ ρ α β : Type} [Writing σ] [Writing τ]

def andThen (found : Except Error α × σ) (go : α → σ → Except Error β × σ) : Except Error β × σ :=
  match found with
  | (.error error, s) => (.error error, s)
  | (.ok a, s) => go a s

/-- Both runs have found the same, or the first one has failed and the second has written more. -/
inductive Abreast : Except Error α × σ → Except Error α × σ → Prop where
  | along (a : α) {s s' : σ} (alike : Alike s s') : Abreast (.ok a, s) (.ok a, s')
  | behind {error : Error} (outside : error.Outside) (found : Except Error α) {s s' : σ}
      (front : bytes s <+: bytes s') : Abreast (.error error, s) (found, s')

theorem Abreast.front {first second : Except Error α × σ} (abreast : Abreast first second) :
    bytes first.2 <+: bytes second.2 := by
  cases abreast with
  | along a alike => exact Writing.bytes_eq alike ▸ List.prefix_rfl
  | behind outside found front => exact front

theorem Abreast.andThen {first second : Except Error α × σ} {go : α → σ → Except Error β × σ}
    (abreast : Abreast first second) (grows : ∀ a s, bytes s <+: bytes (go a s).2)
    (onward : ∀ {a s s'}, first = (.ok a, s) → Alike s s' → Abreast (go a s) (go a s')) :
    Abreast (andThen first go) (andThen second go) := by
  cases abreast with
  | along a alike => exact onward rfl alike
  | behind outside found front =>
    cases found with
    | error error => exact .behind outside _ front
    | ok a => exact .behind outside _ (front.trans (grows a _))

/-- What two runs may do at once: they take nothing back, and the second stays abreast. -/
structure Lockstep (f : σ → Except Error α × σ) : Prop where
  grows : ∀ s, bytes s <+: bytes (f s).2
  abreast : ∀ {s s'}, Alike s s' → Abreast (f s) (f s')

namespace Lockstep

variable {f : σ → Except Error α × σ} {go : α → σ → Except Error β × σ}

theorem outside (steps : Lockstep f) {s : σ} {error : Error} (failed : (f s).1 = .error error) :
    error.Outside := by
  have abreast := steps.abreast (Writing.refl s)
  generalize f s = found at abreast failed
  cases abreast with
  | along a alike => cases failed
  | behind outside found front =>
    cases failed
    exact outside

theorem of_eq {g : σ → Except Error α × σ} (steps : Lockstep f) (same : ∀ s, g s = f s) :
    Lockstep g := by
  rw [funext same]
  exact steps

theorem pure (a : α) : Lockstep fun s : σ => (.ok a, s) where
  grows _ := List.prefix_rfl
  abreast alike := .along a alike

theorem update {change : σ → σ} (silent : ∀ s, bytes (change s) = bytes s)
    (alike : ∀ {s s'}, Alike s s' → Alike (change s) (change s')) :
    Lockstep fun s => (.ok (), change s) where
  grows s := silent s ▸ List.prefix_rfl
  abreast same := .along () (alike same)

theorem andThen (first : Lockstep f) (second : ∀ a, Lockstep (go a)) :
    Lockstep fun s => andThen (f s) go where
  grows s := by
    have grown := first.grows s
    unfold Tabular.andThen
    generalize f s = found at grown ⊢
    rcases found with ⟨error | a, t⟩
    · exact grown
    · exact grown.trans ((second a).grows t)
  abreast alike :=
    (first.abreast alike).andThen (fun a => (second a).grows) fun _ alike =>
      (second _).abreast alike

/-- A step that goes by something in which the two runs agree. -/
theorem depending (read : σ → ρ) (same : ∀ {s s'}, Alike s s' → read s = read s')
    {f : ρ → σ → Except Error α × σ} (steps : ∀ r, Lockstep (f r)) :
    Lockstep fun s => f (read s) s where
  grows s := (steps (read s)).grows s
  abreast alike := by
    rw [same alike]
    exact (steps _).abreast alike

theorem within {f : τ → Except Error α × τ} (steps : Lockstep f) (part : σ → τ)
    (change : σ → τ → σ) (holds : ∀ s, bytes s = bytes (part s))
    (changed : ∀ s t, bytes (change s t) = bytes t)
    (parts : ∀ {s s'}, Alike s s' → Alike (part s) (part s'))
    (whole : ∀ {s s' t t'}, Alike s s' → Alike t t' → Alike (change s t) (change s' t')) :
    Lockstep fun s => ((f (part s)).1, change s (f (part s)).2) where
  grows s := by
    rw [holds, changed]
    exact steps.grows (part s)
  abreast alike := by
    have abreast := steps.abreast (parts alike)
    generalize f (part _) = found at abreast ⊢
    generalize f (part _) = found' at abreast ⊢
    cases abreast with
    | along a same => exact .along a (whole alike same)
    | behind outside found front =>
      refine .behind outside found ?_
      rw [changed, changed]
      exact front

end Lockstep

/-! ## Outputs -/

instance : Writing Output where
  bytes := Output.bytes
  Alike := Output.OutlastedBy
  refl := Output.OutlastedBy.refl
  bytes_eq := Output.OutlastedBy.bytes_eq

namespace Output

theorem OutlastedBy.hasRoom {o o' : Output} (outlasted : o.OutlastedBy o') {text : Bytes}
    (room : o.HasRoom text) : o'.HasRoom text := by
  intro most limit
  obtain ⟨left, same, less⟩ := outlasted.room most limit
  exact Nat.le_trans (room left same) less

theorem OutlastedBy.extended {o o' : Output} (outlasted : o.OutlastedBy o') (text : Bytes) :
    (o.extended text).OutlastedBy (o'.extended text) where
  written := congrArg (·.appendList text) outlasted.written
  room most limit := by
    obtain ⟨before, before_limit, rfl⟩ := Option.map_eq_some_iff.mp limit
    obtain ⟨left, same, less⟩ := outlasted.room before before_limit
    refine ⟨left - text.length, ?_, Nat.sub_le_sub_right less _⟩
    rw [Output.extended, same]
    rfl

theorem write_of_full {o : Output} {text : Bytes} (full : ¬ o.HasRoom text) :
    ∃ room o', o.room = some room ∧ o.write text = (.error (.io o.fullDetail), o') ∧
      o'.bytes = o.bytes ++ text.take room := by
  obtain ⟨room, limit, more⟩ : ∃ room, o.room = some room ∧ ¬ text.length ≤ room := by
    simpa only [HasRoom, not_forall, exists_prop] using full
  refine ⟨room, { o with written := o.written.appendList (text.take room), room := some 0 }, limit,
    ?_, ?_⟩
  · rw [write, limit]
    dsimp only
    rw [if_neg more]
  · simp only [Output.bytes, Array.appendList_eq_append, Array.toList_appendList]

theorem OutlastedBy.write_front {o o' : Output} (outlasted : o.OutlastedBy o') {text : Bytes}
    {room : Nat} (limit : o.room = some room) :
    o.bytes ++ text.take room <+: (o'.write text).2.bytes := by
  rw [outlasted.bytes_eq]
  by_cases enough : o'.HasRoom text
  · rw [write_of_room enough]
    show _ <+: (o'.extended text).bytes
    rw [extended_bytes]
    exact (List.prefix_append_right_inj _).mpr (List.take_prefix room text)
  · obtain ⟨most, o'', limit', wrote, written⟩ := write_of_full enough
    obtain ⟨left, same, less⟩ := outlasted.room most limit'
    cases limit.symm.trans same
    rw [wrote, written]
    exact (List.prefix_append_right_inj _).mpr (List.take_prefix_take_left less)

theorem write_lockstep (text : Bytes) : Lockstep fun o : Output => o.write text where
  grows o := by
    obtain ⟨added, -, same, -⟩ := o.write_bytes text
    exact ⟨added, same.symm⟩
  abreast {o o'} outlasted := by
    by_cases enough : o.HasRoom text
    · rw [write_of_room enough, write_of_room (outlasted.hasRoom enough)]
      exact .along () (outlasted.extended text)
    · obtain ⟨room, full, limit, wrote, written⟩ := write_of_full enough
      rw [wrote]
      refine .behind (.io _) _ ?_
      show full.bytes <+: _
      rw [written]
      exact outlasted.write_front limit

end Output

/-! ## Writers -/

namespace Csv.Writer

instance : Writing Writer where
  bytes w := w.out.bytes
  Alike w w' := ∃ out, w.out.OutlastedBy out ∧ w' = { w with out }
  refl w := ⟨w.out, .refl _, rfl⟩
  bytes_eq := by
    rintro w _ ⟨out, outlasted, rfl⟩
    exact outlasted.bytes_eq

theorem update_lockstep {change : Writer → Writer}
    (apart : ∀ w out, change { w with out } = { change w with out })
    (kept : ∀ w, (change w).out = w.out) : Lockstep fun w => (.ok (), change w) := by
  refine .update (fun w => congrArg Output.bytes (kept w)) ?_
  rintro w _ ⟨out, outlasted, rfl⟩
  exact ⟨out, by rw [kept]; exact outlasted, apart w out⟩

theorem put_lockstep (text : Bytes) : Lockstep fun w : Writer => w.put text := by
  refine (Output.write_lockstep text).within Writer.out (fun w out => { w with out }) (fun _ => rfl)
    (fun _ _ => rfl) ?_ ?_
  · rintro w _ ⟨out, outlasted, rfl⟩
    exact outlasted
  · rintro w _ o o' ⟨out, -, rfl⟩ outlasted
    exact ⟨o', outlasted, rfl⟩

theorem putText_lockstep (text : Bytes) : Lockstep fun w : Writer => w.putText text := by
  have counted : Lockstep fun w : Writer =>
      (.ok (), { w with rowBytes := w.rowBytes + text.length }) :=
    update_lockstep (fun w out => rfl) fun w => rfl
  refine ((put_lockstep text).andThen fun _ => counted).of_eq fun w => ?_
  unfold putText
  rcases w.put text with ⟨error | _, w⟩ <;> rfl

theorem encoder_alike {w w' : Writer} (alike : Alike w w') (forced : Bool) :
    w.encoder forced = w'.encoder forced := by
  obtain ⟨out, -, rfl⟩ := alike
  cases forced <;> rfl

theorem withEncoder_lockstep (forced : Bool) (e : FieldEncoder) :
    Lockstep fun w : Writer => (.ok (), w.withEncoder forced e) := by
  refine update_lockstep (fun w out => ?_) fun w => withEncoder_out w forced e
  cases forced <;> rfl

theorem piece_lockstep (forced : Bool) (e : FieldEncoder) (text : Bytes) :
    Lockstep fun w : Writer => (w.withEncoder forced e).putText text := by
  refine ((withEncoder_lockstep forced e).andThen fun _ => putText_lockstep text).of_eq fun w => ?_
  rfl

theorem field_eq (w : Writer) (forced : Bool) (text : Bytes) :
    w.field forced text =
      let piece := (w.encoder forced).encode text w.scratch.size
      andThen ((w.withEncoder forced piece.encoder).putText piece.out) fun _ w =>
        if piece.rest = [] then (.ok (), w) else w.field forced piece.rest := by
  rw [field]
  dsimp only
  rcases putText _ _ with ⟨error | _, next⟩
  · rfl
  · rfl

theorem field_lockstep (forced : Bool) (text : Bytes) :
    Lockstep fun w : Writer => w.field forced text := by
  have steps : ∀ known : FieldEncoder × Scratch, Lockstep fun w : Writer =>
      let piece := known.1.encode text known.2.size
      andThen ((w.withEncoder forced piece.encoder).putText piece.out) fun _ w =>
        if piece.rest = [] then (.ok (), w) else w.field forced piece.rest := by
    rintro ⟨e, scratch⟩
    refine (piece_lockstep forced _ _).andThen fun _ => ?_
    by_cases more : (e.encode text scratch.size).rest = []
    · simp only [more, ↓reduceIte]
      exact .pure ()
    · have shorter := FieldEncoder.encode_rest_lt e text scratch.size scratch.wide more
      simp only [more, ↓reduceIte]
      exact field_lockstep forced _
  have known : ∀ {w w' : Writer}, Alike w w' →
      (w.encoder forced, w.scratch) = (w'.encoder forced, w'.scratch) := by
    intro w w' alike
    rw [encoder_alike alike]
    obtain ⟨out, -, rfl⟩ := alike
    rfl
  exact (Lockstep.depending _ known steps).of_eq fun w => w.field_eq forced text
termination_by text.length

theorem closeField_lockstep (forced : Bool) :
    Lockstep fun w : Writer => w.closeField forced := by
  have steps : ∀ e : FieldEncoder, Lockstep fun w : Writer =>
      (w.withEncoder forced e.close.1).putText e.close.2 := fun e => piece_lockstep forced _ _
  exact Lockstep.depending _ (fun alike => encoder_alike alike forced) steps

theorem cells_alike {w w' : Writer} (alike : Alike w w') :
    w.cells = w'.cells ∧ w.rowBytes = w'.rowBytes := by
  obtain ⟨out, -, rfl⟩ := alike
  exact ⟨rfl, rfl⟩

theorem separate_lockstep : Lockstep fun w : Writer => w.separate := by
  have steps : ∀ cells : Nat, Lockstep fun w : Writer =>
      if cells = 0 then (.ok (), w) else w.put [Byte.comma] := by
    intro cells
    split
    · exact .pure ()
    · exact put_lockstep _
  exact Lockstep.depending Writer.cells (fun alike => (cells_alike alike).1) steps

theorem cell_lockstep (text : Bytes) (forced : Bool) :
    Lockstep fun w : Writer => w.cell text forced := by
  have counted : Lockstep fun w : Writer => (.ok (), { w with cells := w.cells + 1 }) :=
    update_lockstep (fun w out => rfl) fun w => rfl
  have text_lockstep := (field_lockstep forced text).andThen fun _ => closeField_lockstep forced
  have steps := separate_lockstep.andThen fun _ => counted.andThen fun _ => text_lockstep
  refine steps.of_eq fun w => ?_
  unfold cell
  rcases w.separate with ⟨error | _, w⟩
  · rfl
  · dsimp only [andThen]
    rcases field _ forced text with ⟨error | _, w⟩ <;> rfl

theorem fillBlankRow_lockstep : Lockstep fun w : Writer => w.fillBlankRow := by
  have steps : ∀ row : Nat × Nat, Lockstep fun w : Writer =>
      if row.1 = 1 && row.2 = 0 then w.put [Byte.quote, Byte.quote] else (.ok (), w) := by
    intro row
    split
    · exact put_lockstep _
    · exact .pure ()
  exact Lockstep.depending (fun w : Writer => (w.cells, w.rowBytes))
    (fun alike => Prod.ext (cells_alike alike).1 (cells_alike alike).2) steps

theorem endRow_lockstep : Lockstep fun w : Writer => w.endRow := by
  have cleared : Lockstep fun w : Writer => (.ok (), { w with cells := 0, rowBytes := 0 }) :=
    update_lockstep (fun w out => rfl) fun w => rfl
  refine (fillBlankRow_lockstep.andThen fun _ =>
    (put_lockstep [Byte.lineFeed]).andThen fun _ => cleared).of_eq fun w => ?_
  unfold endRow
  rcases w.fillBlankRow with ⟨error | _, w⟩
  · rfl
  · dsimp only [andThen]
    rcases w.put [Byte.lineFeed] with ⟨error | _, w⟩ <;> rfl

end Csv.Writer

end Tabular
