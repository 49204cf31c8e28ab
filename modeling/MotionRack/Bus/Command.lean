/-!
# Commands of the bus

The commands of the bus: their numbers, and the names under which listings show them.
-/
namespace MotionRack

/-- The number of a command. -/
abbrev CommandId := UInt16

namespace Command

def setPidParams : CommandId := 0x04A0
/-- Copies parameters that were applied before into non-volatile storage. -/
def commit : CommandId := 0x04B9
def setCardType : CommandId := 0x4004
def setDeviceBoard : CommandId := 0x4008
def restartProcessor : CommandId := 0x400B
def setJoystickMapIn : CommandId := 0x4014
def setJoystickMapOut : CommandId := 0x4017
def setStorePositionDeadband : CommandId := 0x401D
def setStorePosition : CommandId := 0x4021
def setHomeParams : CommandId := 0x403E
def setStageParams : CommandId := 0x4041
def setLimitSwitchParams : CommandId := 0x4047
def setShutterParams : CommandId := 0x4064
def setOneWireProgramming : CommandId := 0x40EC
def programOneWire : CommandId := 0x40EF
def requestOneWireSize : CommandId := 0x40F0
def setAllowedDevices : CommandId := 0x40F2
def setDeviceDetection : CommandId := 0x40F5
def setLutInquiry : CommandId := 0x40F8
def inquireLut : CommandId := 0x40FC
def setLutProgramming : CommandId := 0x40FE
def programLut : CommandId := 0x4102
def finishLutProgramming : CommandId := 0x4104
def requestLutSize : CommandId := 0x4106

/-- The wire names of all commands, replies of the programming sessions included. -/
def names : List (CommandId × String) :=
  [(setPidParams, "MOT_SET_DCPIDPARAMS"),
   (commit, "MOT_SET_EEPROMPARAMS"),
   (setCardType, "SET_CARD_TYPE"),
   (setDeviceBoard, "SET_DEVICE_BOARD"),
   (restartProcessor, "RESTART_PROCESSOR"),
   (setJoystickMapIn, "MOD_SET_JOYSTICK_MAP_IN"),
   (setJoystickMapOut, "MOD_SET_JOYSTICK_MAP_OUT"),
   (setStorePositionDeadband, "SET_STORE_POSITION_DEADBAND"),
   (setStorePosition, "SET_STORE_POSITION"),
   (setHomeParams, "MCM_SET_HOMEPARAMS"),
   (setStageParams, "MCM_SET_STAGEPARAMS"),
   (setLimitSwitchParams, "MCM_MOT_SET_LIMSWITCHPARAMS"),
   (setShutterParams, "MCM_SET_SHUTTERPARAMS"),
   (setOneWireProgramming, "OW_SET_PROGRAMMING"),
   (programOneWire, "OW_PROGRAM"),
   (requestOneWireSize, "OW_REQ_PROGRAMMING_SIZE"),
   (setAllowedDevices, "MCM_SET_ALLOWED_DEVICES"),
   (setDeviceDetection, "MCM_SET_DEVICE_DETECTION"),
   (setLutInquiry, "LUT_SET_INQUIRY"),
   (inquireLut, "LUT_INQUIRE"),
   (setLutProgramming, "LUT_SET_PROGRAMMING"),
   (programLut, "LUT_PROGRAM"),
   (finishLutProgramming, "LUT_FINISH_PROGRAMMING"),
   (requestLutSize, "LUT_REQ_PROGRAMMING_SIZE"),
   (0x40EE, "OW_GET_PROGRAMMING"),
   (0x40F1, "OW_GET_PROGRAMMING_SIZE"),
   (0x40FB, "LUT_GET_INQUIRY"),
   (0x40FD, "LUT_INQUIRE_RES"),
   (0x40FF, "LUT_RES_PROGRAMMING"),
   (0x4103, "LUT_PROGRAM_RES"),
   (0x4105, "LUT_FINISH_PROGRAMMING_RES"),
   (0x4107, "LUT_GET_PROGRAMMING_SIZE")]

/-- The name of a command, if it is a known one. -/
def name? (id : CommandId) : Option String := names.lookup id

end Command
end MotionRack
