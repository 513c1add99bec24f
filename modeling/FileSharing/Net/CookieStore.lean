import FileSharing.Net.Cookie

/-!
The cookies a browser holds for one host and the path of its root, with their
expiry. The dates on the wire have whole seconds and years of four digits.
-/

namespace Net

/-- The Expires attribute, in nanoseconds. An early date is not sent and a late one
not understood, so that the cookie lasts as long as the browser runs. -/
def wireExpires (t : Int) : Option Int :=
  let seconds := t / 1000000000
  if seconds < -11644473600 ∨ 253402300800 ≤ seconds then none else some (seconds * 1000000000)

/-- The expiry date is in the past. -/
def expired (now : Int) : Option Int → Bool
  | none => false
  | some expires => expires < now

structure HeldCookie where
  name : Bytes
  value : Bytes
  expires : Option Int
deriving DecidableEq

/-- No name is held twice. -/
structure CookieStore where
  held : List HeldCookie
  distinct : (held.map (·.name)).Nodup

namespace CookieStore

def empty : CookieStore := ⟨[], List.nodup_nil⟩

def forget (store : CookieStore) (name : Bytes) : CookieStore where
  held := store.held.filter fun c => c.name ≠ name
  distinct := store.distinct.sublist (List.filter_sublist.map _)

theorem not_mem_forget (store : CookieStore) (name : Bytes) :
    name ∉ (store.forget name).held.map (·.name) := by
  intro member
  obtain ⟨c, hc, same⟩ := List.mem_map.mp member
  exact of_decide_eq_true (List.mem_filter.mp hc).2 same

/-- A received cookie replaces the one of its name, and is not kept when it has
expired. -/
def receive (store : CookieStore) (now : Int) (c : Cookie) : CookieStore :=
  if expired now (wireExpires c.expires) then store.forget c.name
  else
    { held := ⟨c.name, c.value, wireExpires c.expires⟩ :: (store.forget c.name).held
      distinct := List.nodup_cons.mpr ⟨store.not_mem_forget c.name, (store.forget c.name).distinct⟩ }

/-- The cookies of a request. -/
def carried (store : CookieStore) (now : Int) : List (Bytes × Bytes) :=
  (store.held.filter fun c => !expired now c.expires).map fun c => (c.name, c.value)

/-- The cookie of a name that a request carries. -/
def value? (store : CookieStore) (now : Int) (name : Bytes) : Option Bytes :=
  ((store.carried now).find? fun c => c.1 = name).map (·.2)

/-- The cookie of a name and its expiry. -/
def lookup (store : CookieStore) (name : Bytes) : Option (Bytes × Option Int) :=
  (store.held.find? fun c => c.name = name).map fun c => (c.value, c.expires)

theorem lookup_forget (store : CookieStore) (name other : Bytes) :
    (store.forget name).lookup other = if other = name then none else store.lookup other := by
  rw [lookup, lookup, forget, List.find?_filter]
  by_cases same : other = name
  · subst same
    simp
  · rw [if_neg same]
    congr 2
    funext c
    by_cases here : c.name = other
    · simp [here, same]
    · simp [here]

/-- What is held after a cookie has been received. -/
theorem lookup_receive (store : CookieStore) (now : Int) (c : Cookie) (name : Bytes) :
    (store.receive now c).lookup name =
      if name = c.name then
        if expired now (wireExpires c.expires) then none else some (c.value, wireExpires c.expires)
      else store.lookup name := by
  rw [receive]
  by_cases late : expired now (wireExpires c.expires) = true
  · rw [if_pos late, lookup_forget, if_pos late]
  · rw [if_neg late, if_neg late]
    by_cases same : name = c.name
    · simp [lookup, same]
    · have rest := store.lookup_forget c.name name
      rw [if_neg same] at rest ⊢
      rw [← rest, lookup, lookup, List.find?_cons_of_neg (by simpa using Ne.symm same)]

/-- What is carried is what is held and has not expired. -/
theorem value_lookup (store : CookieStore) (now : Int) (name : Bytes) :
    store.value? now name =
      (store.lookup name).bind fun c => if expired now c.2 then none else some c.1 := by
  have behind : ∀ held : List HeldCookie, (held.map (·.name)).Nodup →
      (((held.filter fun c => !expired now c.expires).map fun c => (c.name, c.value)).find?
        fun c => c.1 = name).map (·.2) =
      ((held.find? fun c => c.name = name).map fun c => (c.value, c.expires)).bind
        fun c => if expired now c.2 then none else some c.1 := by
    intro held distinct
    induction held with
    | nil => rfl
    | cons c held ih =>
        rw [List.map_cons, List.nodup_cons] at distinct
        have rest := ih distinct.2
        by_cases same : c.name = name
        · rw [List.find?_cons_of_pos (by simpa using same)]
          by_cases late : expired now c.expires = true
          · have gone : ∀ d ∈ held, ¬d.name = name := fun d hd here =>
              distinct.1 (same ▸ here ▸ List.mem_map_of_mem hd)
            have none_held : held.find? (fun d => d.name = name) = none :=
              List.find?_eq_none.mpr fun d hd => by simpa using gone d hd
            rw [none_held] at rest
            rw [List.filter_cons_of_neg (by simp [late]), rest]
            simp [late]
          · rw [List.filter_cons_of_pos (by simpa using late), List.map_cons,
              List.find?_cons_of_pos (by simpa using same)]
            simp [late]
        · rw [List.find?_cons_of_neg (by simpa using same), ← rest, List.filter_cons]
          split
          · rw [List.map_cons, List.find?_cons_of_neg (by simpa using same)]
          · rfl
  exact behind store.held store.distinct

end CookieStore
end Net
