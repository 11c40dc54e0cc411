/-! Declarations that stand before an artifact when a tool checks it, because the artifact refers to
them and the host does not have them. -/

namespace Vetting.Prelude

/-- The stubs of the types that a C++ service uses. -/
def cppLines : List String :=
  [
    "// halgate: stub declarations injected for a host-side syntax check",
    "#include <cstdint>",
    "#include <string>",
    "#include <vector>",
    "#include <memory>",
    "#include <functional>",
    "#include <optional>",
    "",
    "namespace android::hardware::automotive::vehicle \x7b",
    "    struct VehiclePropValue \x7b int32_t prop = 0; int32_t areaId = 0; \x7d;",
    "    struct VehiclePropConfig \x7b int32_t prop = 0; \x7d;",
    "    struct GetValueRequest  \x7b VehiclePropValue value; \x7d;",
    "    struct SetValueRequest  \x7b VehiclePropValue value; \x7d;",
    "    struct StatusCode       \x7b static constexpr int OK = 0; \x7d;",
    "    class  IVehicleHardware \x7b",
    "    public:",
    "        virtual ~IVehicleHardware() = default;",
    "        virtual std::vector<VehiclePropConfig> getAllPropertyConfigs() const = 0;",
    "    \x7d;",
    "\x7d",
    "using namespace android::hardware::automotive::vehicle;"
  ]

/-- The classes that a fragment of policy refers to. -/
def policyLines : List String :=
  [
    "class binder  \x7b call set_context_mgr transfer impersonate \x7d",
    "class file    \x7b read write open getattr \x7d",
    "class dir     \x7b read open search \x7d",
    "class service_manager \x7b add find list \x7d",
    "class hwservice_manager \x7b add find list \x7d",
    "class property_service \x7b set \x7d",
    "common file_class_set \x7b ioctl read write create getattr setattr lock "
      ++ "relabelfrom relabelto append unlink link rename execute \x7d",
    "class file inherits file_class_set \x7b execute_no_trans entrypoint open \x7d"
  ]

/-- Lines of text, each with its end. -/
def text (lines : List String) : String :=
  String.join (lines.map (· ++ "\n"))

/-- The declarations, an empty line, and the artifact. -/
def prepend (lines : List String) (artifact : List Char) : List Char :=
  (text lines).toList ++ '\n' :: artifact

/-- The number of lines before the C++ source of an artifact. -/
def cppLineCount : Nat :=
  cppLines.length + 1

end Vetting.Prelude
