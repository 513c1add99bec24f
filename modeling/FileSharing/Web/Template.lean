import FileSharing.Net.Fmt
import FileSharing.Web.Message

/-!
Package `template`: the page data and the errors it collects.
-/

namespace FileSharing
open Net

def TemplateBase.new (name : Bytes) : TemplateBase := ⟨name, []⟩

/-- AddError formats its argument, so a percent sign in it is a directive. -/
def TemplateBase.addError (t : TemplateBase) (name errorValue : Bytes) : TemplateBase :=
  { t with errors := (name, Fmt.sprintf errorValue) :: t.errors.filter fun e => e.1 ≠ name }

def TemplatePassword.new : TemplatePassword := ⟨.new (str "login.html"), []⟩

def TemplatePassword.addError (t : TemplatePassword) (name errorValue : Bytes) :
    TemplatePassword :=
  { t with base := t.base.addError name errorValue }

def TemplateRegister.new : TemplateRegister := ⟨.new (str "register.html"), [], []⟩

def TemplateRegister.addError (t : TemplateRegister) (name errorValue : Bytes) :
    TemplateRegister :=
  { t with base := t.base.addError name errorValue }

def TemplateView.new (title : Bytes) (needPermanentLink : Bool) (list : List FileInfo) :
    TemplateView :=
  ⟨.new (str "view.html"), title, needPermanentLink, list⟩

end FileSharing
