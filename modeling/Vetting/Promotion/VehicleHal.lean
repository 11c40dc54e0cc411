import Vetting.Promotion.RuleSet

/-! The rule set for the draft of a vehicle service: its interface, its implementation and its
security policy. -/

namespace Vetting.VehicleHal

/-- The directory of the interface. -/
def interfaceDirectory : String := "hardware/interfaces/automotive/vehicle/aidl"

/-- The directory of the implementation. -/
def implementationDirectory : String := "hardware/interfaces/automotive/vehicle/impl"

/-- The directory of the policy. -/
def policyDirectory : String := "system/sepolicy/vendor"

/-- The directory of the package of the interface. -/
def packageDirectory : String :=
  interfaceDirectory ++ "/android/hardware/automotive/vehicle"

def vehicleAidl : String := packageDirectory ++ "/IVehicle.aidl"

def callbackAidl : String := packageDirectory ++ "/IVehicleCallback.aidl"

def propValueAidl : String := packageDirectory ++ "/VehiclePropValue.aidl"

def interfaceBlueprint : String := interfaceDirectory ++ "/Android.bp"

def serviceSource : String := implementationDirectory ++ "/VehicleHalService.cpp"

def serviceBlueprint : String := implementationDirectory ++ "/Android.bp"

def serviceScript : String :=
  implementationDirectory ++ "/android.hardware.automotive.vehicle-service.rc"

def serviceManifest : String :=
  implementationDirectory ++ "/android.hardware.automotive.vehicle-service.xml"

def halPolicy : String := policyDirectory ++ "/vehiclehal.te"

def servicePolicy : String := policyDirectory ++ "/vehiclehal_service.te"

def fileContexts : String := policyDirectory ++ "/file_contexts"

/-- The name of the package. -/
def packageName : String := "android.hardware.automotive.vehicle"

/-- A check that stands against a promotion. -/
def must (path : String) (rule : ContentRule) (message : String) : FileCheck :=
  ⟨path, rule, .error, message⟩

/-- A check that warns. -/
def should (path : String) (rule : ContentRule) (message : String) : FileCheck :=
  ⟨path, rule, .warning, message⟩

/-- A file of the interface is in its package. -/
def inPackage (path : String) : FileCheck :=
  must path (.contains ("package " ++ packageName ++ ";")) ("missing package " ++ packageName ++ ";")

/-- The interface declares a method. -/
def declares (pattern signature : String) : FileCheck :=
  must vehicleAidl (.matching pattern) ("missing required method signature: " ++ signature)

/-- The service mentions a token. -/
def mentions (token : String) : FileCheck :=
  must serviceSource (.contains token) ("missing required token: " ++ token)

/-- A file is made of blocks in braces. -/
def hasBraces (path : String) : FileCheck :=
  must path (.matching "\\\x7b[\\s\\S]*\\\x7d") "does not look like Blueprint (missing braces)"

/-- A policy does not allow everything. -/
def isRestrained (path : String) : FileCheck :=
  should path (.absent "allow\\s+\\*\\s+\\*:\\*\\s+\\*\\s*;")
    "over-permissive 'allow * *:* *;' rule"

def interfaceChecks : List FileCheck := [
  inPackage vehicleAidl,
  inPackage callbackAidl,
  inPackage propValueAidl,
  must propValueAidl (.matching "\\bparcelable\\s+VehiclePropValue\\s*;")
    "must declare 'parcelable VehiclePropValue;'",
  must callbackAidl
    (.matching "\\bvoid\\s+onPropertyEvent\\s*\\(\\s*in\\s+VehiclePropValue\\s+value\\s*\\)\\s*;")
    "missing required callback method onPropertyEvent(in VehiclePropValue value);",
  declares
    "\\bVehiclePropValue\\s+get\\s*\\(\\s*int\\s+propId\\s*,\\s*int\\s+areaId\\s*\\)\\s*;"
    "VehiclePropValue get(int propId, int areaId);",
  declares "\\bvoid\\s+set\\s*\\(\\s*in\\s+VehiclePropValue\\s+value\\s*\\)\\s*;"
    "void set(in VehiclePropValue value);",
  declares
    "\\bvoid\\s+registerCallback\\s*\\(\\s*in\\s+IVehicleCallback\\s+callback\\s*\\)\\s*;"
    "void registerCallback(in IVehicleCallback callback);",
  declares
    "\\bvoid\\s+unregisterCallback\\s*\\(\\s*in\\s+IVehicleCallback\\s+callback\\s*\\)\\s*;"
    "void unregisterCallback(in IVehicleCallback callback);"]

def serviceChecks : List FileCheck := [
  mentions "BnIVehicle",
  mentions "AServiceManager_addService",
  mentions "android.hardware.automotive.vehicle.IVehicle/default",
  mentions "registerCallback",
  mentions "unregisterCallback",
  must serviceSource (.contains "<aidl/android/hardware/automotive/vehicle/BnIVehicle.h>")
    "missing include <aidl/android/hardware/automotive/vehicle/BnIVehicle.h>"]

def blueprintChecks : List FileCheck := [
  hasBraces interfaceBlueprint,
  must interfaceBlueprint (.contains "aidl_interface") "expected aidl_interface \x7b ... \x7d",
  must interfaceBlueprint (.contains packageName) ("expected name " ++ packageName),
  must interfaceBlueprint (.contains "backend")
    "expected backend configuration for the AIDL interface",
  hasBraces serviceBlueprint,
  must serviceBlueprint (.containsAny ["cc_binary", "cc_defaults"])
    "expected cc_binary (service) module",
  must serviceBlueprint (.contains "VehicleHalService.cpp")
    "expected VehicleHalService.cpp in srcs"]

def deploymentChecks : List FileCheck := [
  must serviceScript
    (.matching "(?m)^\\s*service\\s+android\\.hardware\\.automotive\\.vehicle-service\\b")
    "expected 'service android.hardware.automotive.vehicle-service ...'",
  must serviceScript (.contains "class hal") "expected 'class hal'",
  must serviceScript (.requires "disabled" "oneshot")
    "service is disabled without oneshot and would never start",
  must serviceManifest (.matching "<manifest[\\s>][\\s\\S]*</manifest>")
    "not a manifest xml (missing <manifest> root)",
  must serviceManifest (.contains packageName) ("expected hal name " ++ packageName),
  must serviceManifest (.matching "<interface>[\\s\\S]*IVehicle") "expected interface IVehicle",
  must serviceManifest (.contains "default") "expected instance 'default'"]

def policyChecks : List FileCheck := [
  should halPolicy (.containsAny ["type vehiclehal", "type vehicle_hal"])
    "no 'type vehiclehal' declaration (check naming)",
  should servicePolicy (.containsAny ["vehiclehal_service", "vehicle_hal_service"])
    "no service domain type (check naming)",
  must fileContexts (.containsAny ["/vendor/bin", "/system/bin"])
    "missing any /vendor/bin or /system/bin mapping",
  should serviceSource (.absent "while\\s*\\(\\s*(true|1)\\s*\\)") "blocking while(true) loop",
  should serviceSource (.absent "\\bsleep\\s*\\(") "sleep() call in service code",
  isRestrained halPolicy,
  isRestrained servicePolicy,
  should FileCheck.everyFile (.absent "\\bTODO\\b") "contains TODO markers"]

/-- The rule set. Nothing in a draft of the service belongs to an app; the manifest of an app has
the namespace on its root element, which the manifest of the service never has. -/
def ruleSet : RuleSet where
  allowedStarts :=
    [interfaceDirectory ++ "/", implementationDirectory ++ "/", policyDirectory ++ "/"]
  requiredFiles := [vehicleAidl, callbackAidl, propValueAidl, interfaceBlueprint, serviceSource,
    serviceBlueprint, serviceScript, serviceManifest, halPolicy, servicePolicy, fileContexts]
  forbidden := ["com.example", "AndroidManifest.xml", "<manifest xmlns:android"]
  checks := interfaceChecks ++ serviceChecks ++ blueprintChecks ++ deploymentChecks ++ policyChecks

end Vetting.VehicleHal
