import Devcontainer.Mount.Text
import Mathlib.Data.List.Basic

/-!
# The mount of a list of settings

Settings are read one after another into a draft. What a draft holds of a class depends on the
settings of this class only, so the whole run comes to the last setting of each class, and settings of
different classes may stand in any order.
-/

namespace Devcontainer.Mount

/-- The mount that a list of settings describes: of each class the last one counts, and no setting
names a kind that is not known. -/
structure Describes (settings : List Setting) (m : Mount) : Prop where
  kinds : ∀ name ∈ settings.filterMap Setting.kind?, (Kind.ofName? name).isSome
  kind : (settings.filterMap Setting.kind?).getLast?.bind Kind.ofName? = some m.kind
  target : (settings.filterMap Setting.target?).getLast? = some m.target
  target_ne : m.target ≠ ""
  source : (settings.filterMap Setting.source?).getLast? = m.source
  readOnly : (settings.filterMap Setting.readOnly?).getLast?.getD false = m.readOnly
  extra : settings.filterMap Setting.extra? = m.extra

namespace Draft

def gathered (settings : List Setting) : Draft where
  kind := (settings.filterMap Setting.kind?).getLast?.bind Kind.ofName?
  source := (settings.filterMap Setting.source?).getLast?
  target := (settings.filterMap Setting.target?).getLast?
  readOnly := (settings.filterMap Setting.readOnly?).getLast?.getD false
  extra := settings.filterMap Setting.extra?

theorem forall_kinds_cons {P : String → Prop} {s : Setting} {settings : List Setting} :
    (∀ name ∈ (s :: settings).filterMap Setting.kind?, P name) ↔
      (∀ name ∈ s.kind?, P name) ∧ ∀ name ∈ settings.filterMap Setting.kind?, P name := by
  rw [List.filterMap_cons]
  cases s.kind? <;> simp

theorem known_of_add {d next : Draft} {s : Setting} (h : d.add s = .ok next) :
    ∀ name ∈ s.kind?, (Kind.ofName? name).isSome := by
  cases s with
  | kind name =>
      rintro _ ⟨⟩
      rw [add] at h
      cases hname : Kind.ofName? name with
      | some kind => rfl
      | none =>
          rw [hname] at h
          cases h
  | _ => exact nofun

theorem known_of_addAll {d next : Draft} {settings : List Setting}
    (h : d.addAll settings = .ok next) :
    ∀ name ∈ settings.filterMap Setting.kind?, (Kind.ofName? name).isSome := by
  induction settings generalizing d with
  | nil => exact nofun
  | cons s settings ih =>
      rw [addAll] at h
      cases hs : d.add s with
      | error fault =>
          rw [hs] at h
          cases h
      | ok d' =>
          rw [hs] at h
          exact forall_kinds_cons.2 ⟨known_of_add hs, ih h⟩

theorem add_gathered (settings : List Setting) {s : Setting}
    (h : ∀ name ∈ s.kind?, (Kind.ofName? name).isSome) :
    (gathered settings).add s = .ok (gathered (settings ++ [s])) := by
  cases s with
  | kind name =>
      obtain ⟨kind, hkind⟩ := Option.isSome_iff_exists.1 (h name rfl)
      simp [add, gathered, Setting.kind?, Setting.source?, Setting.target?, Setting.readOnly?,
        Setting.extra?, hkind]
  | _ =>
      simp [add, gathered, Setting.kind?, Setting.source?, Setting.target?, Setting.readOnly?,
        Setting.extra?]

theorem addAll_gathered {settings : List Setting}
    (h : ∀ name ∈ settings.filterMap Setting.kind?, (Kind.ofName? name).isSome)
    (before : List Setting) :
    (gathered before).addAll settings = .ok (gathered (before ++ settings)) := by
  induction settings generalizing before with
  | nil => rw [addAll, List.append_nil]
  | cons s settings ih =>
      obtain ⟨hs, hrest⟩ := forall_kinds_cons.1 h
      have hrun := ih hrest (before ++ [s])
      rw [List.append_assoc, List.singleton_append] at hrun
      rw [addAll, add_gathered before hs]
      exact hrun

/-- A run comes to its end unless a setting names a kind that is not known. -/
theorem addAll_empty_eq_ok_iff {settings : List Setting} {d : Draft} :
    empty.addAll settings = .ok d ↔
      (∀ name ∈ settings.filterMap Setting.kind?, (Kind.ofName? name).isSome) ∧
        gathered settings = d := by
  have hempty : empty = gathered [] := rfl
  constructor
  · intro h
    have hknown := known_of_addAll h
    rw [hempty, addAll_gathered hknown] at h
    exact ⟨hknown, Except.ok.inj h⟩
  · rintro ⟨hknown, rfl⟩
    rw [hempty, addAll_gathered hknown, List.nil_append]

theorem toMount_eq_ok_iff {d : Draft} {m : Mount} : d.toMount = .ok m ↔
    d = ⟨some m.kind, m.source, some m.target, m.readOnly, m.extra⟩ ∧ m.target ≠ "" := by
  obtain ⟨kind, source, target, readOnly, extra⟩ := d
  constructor
  · intro h
    unfold toMount at h
    simp only at h
    split at h
    next => cases h
    next =>
      split at h
      next => cases h
      next => cases h
      next hne =>
        cases h
        exact ⟨rfl, hne⟩
  · rintro ⟨h, hne⟩
    cases h
    simp [toMount]

end Draft

theorem describes_iff {settings : List Setting} {m : Mount} : Describes settings m ↔
    (∀ name ∈ settings.filterMap Setting.kind?, (Kind.ofName? name).isSome) ∧
      Draft.gathered settings = ⟨some m.kind, m.source, some m.target, m.readOnly, m.extra⟩ ∧
        m.target ≠ "" := by
  rw [Draft.gathered, Draft.mk.injEq]
  constructor
  · rintro ⟨hkinds, hkind, htarget, hne, hsource, hreadOnly, hextra⟩
    exact ⟨hkinds, ⟨hkind, hsource, htarget, hreadOnly, hextra⟩, hne⟩
  · rintro ⟨hkinds, ⟨hkind, hsource, htarget, hreadOnly, hextra⟩, hne⟩
    exact ⟨hkinds, hkind, htarget, hne, hsource, hreadOnly, hextra⟩

theorem ofSettings_eq_ok_iff {settings : List Setting} {m : Mount} :
    ofSettings settings = .ok m ↔ Describes settings m := by
  rw [ofSettings, describes_iff, ← Draft.toMount_eq_ok_iff]
  cases hrun : Draft.empty.addAll settings with
  | error fault =>
      refine iff_of_false nofun fun h => ?_
      have hok := Draft.addAll_empty_eq_ok_iff.2 ⟨h.1, rfl⟩
      rw [hrun] at hok
      cases hok
  | ok d =>
      obtain ⟨hknown, rfl⟩ := Draft.addAll_empty_eq_ok_iff.1 hrun
      exact (and_iff_right hknown).symm

/-! ## The order of settings -/

inductive Subject where
  | kind | source | target | readOnly | other
deriving DecidableEq, Repr

def Setting.subject : Setting → Subject
  | .kind _ => .kind
  | .source _ => .source
  | .target _ => .target
  | .readOnly _ => .readOnly
  | .extra _ => .other

namespace Draft

theorem addAll_cons (d : Draft) (s : Setting) (settings : List Setting) :
    d.addAll (s :: settings) = (d.add s).bind fun next => next.addAll settings := by
  rw [addAll]
  cases d.add s <;> rfl

theorem addAll_append (d : Draft) (before after : List Setting) :
    d.addAll (before ++ after) = (d.addAll before).bind fun next => next.addAll after := by
  induction before generalizing d with
  | nil => rfl
  | cons s before ih =>
      rw [List.cons_append, addAll_cons, addAll_cons]
      cases d.add s with
      | error fault => rfl
      | ok next => exact ih next

theorem add_kind_comm (d : Draft) (name : String) {s : Setting} (h : s.subject ≠ .kind) :
    ((d.add (.kind name)).bind fun next => next.add s) =
      (d.add s).bind fun next => next.add (.kind name) := by
  cases s with
  | kind _ => exact absurd rfl h
  | _ =>
      simp only [add]
      cases Kind.ofName? name <;> rfl

/-- Two settings of different subjects change different parts of a draft, and only one of them can be
at fault. -/
theorem add_add_comm (d : Draft) {s t : Setting} (h : s.subject ≠ t.subject) :
    ((d.add s).bind fun next => next.add t) = (d.add t).bind fun next => next.add s := by
  cases s with
  | kind name => exact add_kind_comm d name (Ne.symm h)
  | _ =>
      cases t with
      | kind name => exact (add_kind_comm d name h).symm
      | _ => simp_all [Setting.subject, add, Except.bind]

theorem addAll_swap (d : Draft) (before after : List Setting) {s t : Setting}
    (h : s.subject ≠ t.subject) :
    d.addAll (before ++ s :: t :: after) = d.addAll (before ++ t :: s :: after) := by
  have htwo : ∀ (d : Draft) (s t : Setting), d.addAll (s :: t :: after) =
      ((d.add s).bind fun next => next.add t).bind fun next => next.addAll after := by
    intro d s t
    rw [addAll_cons]
    cases d.add s with
    | error fault => rfl
    | ok next => exact addAll_cons next t after
  have hswap : (fun next : Draft => next.addAll (s :: t :: after)) =
      fun next => next.addAll (t :: s :: after) := by
    funext next
    rw [htwo, htwo, add_add_comm next h]
  rw [addAll_append, addAll_append, hswap]

end Draft

end Devcontainer.Mount
