import DataBlock.Codec
import DataBlock.Fault.Outcome

/-!
# Why a field is unreadable

A field is unreadable for what is stored in it, for its bit, or because it does not lie within
the bytes.  The first are the faults of the decoders of its window, which have the window to
look at and nothing else.

Main results:

- `Fault.BlamesStored`: the faults of what is stored.
- `Fault.OfRead`: the faults of a read of a field.
- `FieldType.faults_ofRead`: a read of a field has no others, of any type and in any bytes.
-/

namespace DataBlock

/-- The fault blames what is stored in a field: a half of a byte that is no digit, half of a
surrogate pair, a header with a length above its maximum, or a part of a date or time that is
out of its range. -/
inductive Fault.BlamesStored : Fault → Prop where
  | malformedBcd (offset : Nat) (byte : UInt8) : BlamesStored (.malformedBcd offset byte)
  | notACharacter (code : Nat) : BlamesStored (.invalid (.notACharacter code))
  | overlong (w : CharWidth) (offset length most : Nat) :
      BlamesStored (.invalid (.overlong w offset length most))
  | date (year month day : Nat) : BlamesStored (.invalid (.date year month day))
  | nanoseconds (nanos : Nat) : BlamesStored (.invalid (.nanoseconds nanos))
  | timeOfDay (hour minute second : Nat) : BlamesStored (.invalid (.timeOfDay hour minute second))
  | dayCount (days : Nat) : BlamesStored (.invalid (.dayCount days))
  | dayMillis (ms : Nat) : BlamesStored (.invalid (.dayMillis ms))
  | longYear (year : Nat) : BlamesStored (.invalid (.longYear year))

/-- The fault of a read of a field: it blames what is stored, the bit of the field, or the end
of the bytes. -/
inductive Fault.OfRead : Fault → Prop where
  | stored {fault : Fault} (h : fault.BlamesStored) : OfRead fault
  | missingBit : OfRead (.invalid .missingBit)
  | bitIndex (index : Nat) : OfRead (.invalid (.bitIndex index))
  | bufferTooSmall (offset needed available : Nat) :
      OfRead (.bufferTooSmall offset needed available)

/-- A computation fails only for what is stored. -/
abbrev BlamedOnStored {α : Type} (x : Except Fault α) : Prop :=
  Outcome.Faults Fault.BlamesStored x

section

open Outcome

/-! ## Decoders -/

theorem blamedOnStored_charOf (code : Nat) : BlamedOnStored (CharWidth.charOf code) := by
  unfold CharWidth.charOf
  split
  · exact faults_error (.notACharacter code)
  · exact faults_ok _

theorem blamedOnStored_digitPair (offset : Nat) (b : UInt8) :
    BlamedOnStored (digitPair offset b) := by
  unfold digitPair
  split
  · exact faults_ok _
  · exact faults_error (.malformedBcd offset b)

theorem blamedOnStored_dateOf (year month day : Nat) :
    BlamedOnStored (dateOf year month day) := by
  unfold dateOf
  split
  · exact faults_ok _
  · exact faults_error (.date year month day)

theorem blamedOnStored_timeOf (hour minute second nanos : Nat) :
    BlamedOnStored (timeOf hour minute second nanos) := by
  unfold timeOf
  split
  · exact faults_error (.nanoseconds nanos)
  · split
    · exact faults_ok _
    · exact faults_error (.timeOfDay hour minute second)

theorem blamedOnStored_s5time (offset : Nat) (w : Bytes) :
    BlamedOnStored (S5Time.decode offset w) := by
  simp only [S5Time.decode]
  split
  · exact faults_error (.malformedBcd offset (w.byte 0))
  · exact faults_map (blamedOnStored_digitPair _ _) _

theorem blamedOnStored_decodeDate (w : Bytes) : BlamedOnStored (decodeDate w) := by
  simp only [decodeDate]
  split
  · exact faults_error (.dayCount _)
  · exact faults_ok _

theorem blamedOnStored_decodeTimeOfDay (w : Bytes) : BlamedOnStored (decodeTimeOfDay w) := by
  simp only [decodeTimeOfDay]
  split
  · exact faults_ok _
  · exact faults_error (.dayMillis _)

theorem blamedOnStored_dateAndTime (offset : Nat) (w : Bytes) :
    BlamedOnStored (DateAndTime.decode offset w) := by
  unfold DateAndTime.decode
  iterate 8 refine faults_bind (blamedOnStored_digitPair _ _) fun _ _ => ?_
  refine faults_bind (blamedOnStored_dateOf _ _ _) fun _ _ => ?_
  exact faults_bind (blamedOnStored_timeOf _ _ _ _) fun _ _ => faults_ok _

theorem blamedOnStored_dateTimeLong (w : Bytes) : BlamedOnStored (DateTimeLong.decode w) := by
  rw [DateTimeLong.decode]
  split
  · refine faults_bind (blamedOnStored_dateOf _ _ _) fun _ _ => ?_
    exact faults_bind (blamedOnStored_timeOf _ _ _ _) fun _ _ => faults_ok _
  · exact faults_error (.longYear _)

/-! ## Reads -/

theorem ofRead_window (bs : Bytes) (offset len : Nat) :
    Faults Fault.OfRead (window bs offset len) := by
  unfold window
  split
  · exact faults_ok _
  · exact faults_error (.bufferTooSmall offset len bs.length)

theorem ofRead_readCounted (w : CharWidth) (bs : Bytes) (offset : Nat) :
    Faults Fault.OfRead (readCounted w bs offset) := by
  refine faults_bind (ofRead_window _ _ _) fun header _ => ?_
  simp only
  split
  · exact faults_error (.stored (.overlong w offset _ _))
  · refine faults_bind (ofRead_window _ _ _) fun units _ => ?_
    refine faults_bind (faults_mapM fun unit _ => ?_) fun _ _ => faults_ok _
    exact (blamedOnStored_charOf _).mono .stored

/-- A read of a window fails for its end, or for what the decoder says to the window. -/
theorem ofRead_bind_window {α : Type} {decoder : Bytes → Except Fault α}
    (h : ∀ w, BlamedOnStored (decoder w)) (bs : Bytes) (offset len : Nat) :
    Faults Fault.OfRead ((window bs offset len).bind decoder) :=
  faults_bind (ofRead_window bs offset len) fun w _ => (h w).mono .stored

end

/-- A read of a field of any type, in any bytes, has no other faults. -/
theorem FieldType.faults_ofRead (t : FieldType) (bs : Bytes) (offset : Nat) (bit : Option Nat) :
    Outcome.Faults Fault.OfRead (t.decode bs offset bit) := by
  cases t with
  | bool =>
      refine Outcome.faults_bind ?_ fun index _ => Outcome.faults_bind ?_ fun i _ =>
        Outcome.faults_bind (ofRead_window bs offset 1) fun w _ => Outcome.faults_ok _
      · cases bit with
        | none => exact Outcome.faults_error .missingBit
        | some index => exact Outcome.faults_ok index
      · unfold Bit.index
        split
        · exact Outcome.faults_ok _
        · exact Outcome.faults_error (.bitIndex index)
  | counted w n => exact Outcome.faults_map (ofRead_readCounted w bs offset) _
  | char w =>
      exact Outcome.faults_map (ofRead_bind_window (fun _ => blamedOnStored_charOf _) _ _ _) _
  | s5time =>
      exact Outcome.faults_map (ofRead_bind_window (blamedOnStored_s5time offset) _ _ _) _
  | date => exact Outcome.faults_map (ofRead_bind_window blamedOnStored_decodeDate _ _ _) _
  | timeOfDay =>
      exact Outcome.faults_map (ofRead_bind_window blamedOnStored_decodeTimeOfDay _ _ _) _
  | dateAndTime =>
      exact Outcome.faults_map (ofRead_bind_window (blamedOnStored_dateAndTime offset) _ _ _) _
  | dateTimeLong =>
      exact Outcome.faults_map (ofRead_bind_window blamedOnStored_dateTimeLong _ _ _) _
  | _ => exact Outcome.faults_map (ofRead_window bs offset _) _

end DataBlock
